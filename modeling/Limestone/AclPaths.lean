import Limestone.DbmsAcl
import Limestone.DbmsBind
import Limestone.Library.Runs
import Limestone.Library.SqlText
import Mathlib.Logic.Relation

/-!
# The paths of ACL inheritance

`acl_inheritance` has a path for every resource, the ids of its ACL ancestors
from the root on.  A new resource is put below a parent, a moved one is put
below another parent together with all paths that begin with its own.
-/

namespace Limestone.AclPaths

open Library
open DbmsAcl
open DbmsBind
open SqlText

/-- The text of an id in a path. -/
def idText (id : Id) : Text :=
  (toString id).toList

/-- A row of `acl_inheritance`, with the text of the path. -/
structure AclRow where
  resourceId : Id
  path : Text
deriving DecidableEq, Repr

structure AclTable where
  rows : List AclRow
  pkey : (rows.map AclRow.resourceId).Nodup

/-- The column is a `varchar(255)`. -/
def tooLong (path : Text) : Bool :=
  decide (255 < path.length)

/-! ## The functions -/

/--
`dbms_inherit_parent_aces`.  A parent without a row has nothing to select and
no row is inserted.
-/
def dbmsInheritParentAces (table : AclTable) (serialno parent : Id) :
    Except DavError AclTable :=
  if listed : serialno ∈ table.rows.map AclRow.resourceId then .ok table
  else
    match table.rows.find? fun a => a.resourceId == parent with
    | none => .ok table
    | some a =>
        let path := a.path ++ ',' :: idText serialno
        if tooLong path then
          .error ⟨httpInternalServerError,
            "DBMS Error during update on acl_inheritance"⟩
        else
          .ok
            { rows := table.rows ++ [⟨serialno, path⟩]
              pkey := by
                rw [List.map_append, List.nodup_append]
                refine ⟨table.pkey, List.nodup_singleton _, ?_⟩
                intro id member other otherMember same
                rw [List.map_singleton, List.mem_singleton] at otherMember
                rw [same, otherMember] at member
                exact listed member }

/-- `WHERE path LIKE ? OR path = ?`. -/
def inSubtree (origPath path : Text) : Bool :=
  like path (origPath ++ [',', '%']) || path == origPath

/-- A row after the UPDATE of `dbms_change_acl_parent`. -/
def moved (origPath newPath : Text) (row : AclRow) : AclRow :=
  if inSubtree origPath row.path then
    { row with path := replace origPath newPath row.path }
  else row

/-- `dbms_change_acl_parent`. -/
def dbmsChangeAclParent (table : AclTable) (serialno newParentId : Id) :
    Except DavError AclTable :=
  match table.rows.find? fun row => row.resourceId == serialno with
  | none => dbmsInheritParentAces table serialno newParentId
  | some orig =>
      match table.rows.find? fun row => row.resourceId == newParentId with
      | none =>
          .error ⟨httpInternalServerError,
            "invalid parent specified in change_acl_parent"⟩
      | some newParent =>
          let newPath := newParent.path ++ ',' :: idText serialno
          if table.rows.any fun row => inSubtree orig.path row.path &&
              tooLong (replace orig.path newPath row.path) then
            .error ⟨httpInternalServerError,
              "DBMS Error during update to acl_inheritance (moving subtree)"⟩
          else
            .ok
              { rows := table.rows.map (moved orig.path newPath)
                pkey := by
                  have keys : (table.rows.map (moved orig.path newPath)).map
                      AclRow.resourceId = table.rows.map AclRow.resourceId := by
                    rw [List.map_map]
                    apply List.map_congr_left
                    intro row _
                    show (moved orig.path newPath row).resourceId = _
                    unfold moved
                    split
                    · rfl
                    · rfl
                  rw [keys]
                  exact table.pkey }

/-- `dav_repos_inherit_aces` of a new resource, and a MOVE's change of parent. -/
inductive Step where
  | inheritAces (serialno parentId : Id)
  | changeAclParent (serialno newParentId : Id)
deriving DecidableEq, Repr

def step (table : AclTable) : Step → Except DavError AclTable
  | .inheritAces serialno parentId =>
      if parentId = 0 then
        .error ⟨httpInternalServerError,
          "Could not get parent id for ACL Inheritance"⟩
      else dbmsInheritParentAces table serialno parentId
  | .changeAclParent serialno newParentId =>
      dbmsChangeAclParent table serialno newParentId

/-! ## The ACL tree -/

/-- The table, and the parent that each row was last put below. -/
structure Traced where
  table : AclTable
  parent : Id → Option Id

/-- A row was inserted or put below another parent. -/
def placed (next : AclTable) (parent : Id → Option Id)
    (serialno newParentId : Id) : Id → Option Id :=
  if serialno ∈ next.rows.map AclRow.resourceId then
    fun id => if id = serialno then some newParentId else parent id
  else parent

def parentAfter (before next : AclTable) (parent : Id → Option Id) :
    Step → Id → Option Id
  | .inheritAces serialno parentId =>
      if serialno ∈ before.rows.map AclRow.resourceId then parent
      else placed next parent serialno parentId
  | .changeAclParent serialno newParentId =>
      placed next parent serialno newParentId

/-- A statement that fails changes nothing. -/
def after (traced : Traced) (taken : Step) : Traced :=
  match step traced.table taken with
  | .error _ => traced
  | .ok next =>
      { table := next
        parent := parentAfter traced.table next traced.parent taken }

/-- Every path is the parent's, a comma and the own id, with no id twice. -/
structure PathsInStep (traced : Traced) : Prop where
  root : ∀ row ∈ traced.table.rows, traced.parent row.resourceId = none →
    row.resourceId = rootCollectionId ∧ row.path = idText row.resourceId
  child : ∀ row ∈ traced.table.rows, ∀ parentId,
    traced.parent row.resourceId = some parentId →
      ∃ parentRow ∈ traced.table.rows, parentRow.resourceId = parentId ∧
        row.path = parentRow.path ++ ',' :: idText row.resourceId
  distinct : ∀ row ∈ traced.table.rows,
    (Segments.tokens ',' row.path).Nodup

/-- A resource is another or inherits from it. -/
def Descends (traced : Traced) : Id → Id → Prop :=
  Relation.ReflTransGen fun id parentId => traced.parent id = some parentId

/--
A new parent changes the paths of the resource and of its ACL descendants,
and of these the leading old path only.
-/
def ReparentsExactly (traced : Traced) : Step → Prop
  | .inheritAces _ _ => True
  | .changeAclParent serialno newParentId =>
      ∀ next, dbmsChangeAclParent traced.table serialno newParentId = .ok next →
        ∀ orig ∈ traced.table.rows, orig.resourceId = serialno →
        ∀ newParent ∈ traced.table.rows, newParent.resourceId = newParentId →
          next.rows.map AclRow.resourceId =
            traced.table.rows.map AclRow.resourceId ∧
          ∀ row ∈ traced.table.rows,
            (Descends traced row.resourceId serialno →
              ∃ rest, row.path = orig.path ++ rest ∧
                (⟨row.resourceId, newParent.path ++
                  ',' :: idText serialno ++ rest⟩ : AclRow) ∈ next.rows) ∧
            (¬ Descends traced row.resourceId serialno → row ∈ next.rows)

/--
When a move leaves the paths in step: the resource is not put below itself,
and its path occurs once only in the paths that begin with it.  A move that
makes a path too long does nothing.
-/
def MovesCleanly (traced : Traced) : Step → Prop
  | .inheritAces _ _ => True
  | .changeAclParent serialno newParentId =>
      ∀ orig ∈ traced.table.rows, orig.resourceId = serialno →
      ∀ newParent ∈ traced.table.rows, newParent.resourceId = newParentId →
        (∃ row ∈ traced.table.rows, inSubtree orig.path row.path = true ∧
          tooLong (replace orig.path
            (newParent.path ++ ',' :: idText serialno) row.path) = true) ∨
        (idText serialno ∉ Segments.tokens ',' newParent.path ∧
          (newParent.path ++ ',' :: idText serialno = orig.path ∨
            ∀ row ∈ traced.table.rows, ∀ rest,
              row.path = orig.path ++ ',' :: rest → ¬ orig.path <:+: rest))

/-! ## Paths as lists of ids -/

theorem idText_cases (id : Id) :
    (∃ number, id = Int.ofNat number ∧
      idText id = Nat.toDigits 10 number) ∨
    ∃ number, id = Int.negSucc number ∧
      idText id = '-' :: Nat.toDigits 10 (number + 1) :=
  SqlText.toString_cases id

/-- The characters of an id. -/
theorem mem_idText
    {char : Char}
    {id : Id}
    (member : char ∈ idText id) :
    char.isDigit = true ∨ char = '-' :=
  SqlText.mem_toString member

theorem isSegment_idText (id : Id) : Segments.IsSegment ',' (idText id) := by
  constructor
  · rcases idText_cases id with ⟨number, _, text⟩ | ⟨number, _, text⟩
    · rw [text]
      exact Nat.toDigits_ne_nil
    · rw [text]
      exact List.cons_ne_nil _ _
  · intro member
    rcases mem_idText member with digit | minus
    · cases digit
    · cases minus

/-- Different ids have different texts. -/
theorem idText_injective : Function.Injective idText :=
  SqlText.toString_injective

theorem tokens_pathText (ids : List Id) :
    Segments.tokens ',' (pathText ids) = ids.map idText := by
  cases ids with
  | nil => rfl
  | cons id ids =>
      have segments : ∀ name ∈ (id :: ids).map idText,
          Segments.IsSegment ',' name := by
        intro name member
        rcases List.mem_map.mp member with ⟨other, _, rfl⟩
        exact isSegment_idText other
      have whole := Segments.tokens_joined segments (by simp)
        (Or.inl rfl : Segments.IsTrail ',' [])
      rw [List.append_nil] at whole
      exact whole

theorem pathText_append
    {front : List Id}
    (nonempty : front ≠ [])
    (back : List Id) :
    pathText (front ++ back) =
      pathText front ++ Segments.slashed ',' (back.map idText) := by
  cases front with
  | nil => exact (nonempty rfl).elim
  | cons id front =>
      show idText id ++ Segments.slashed ',' ((front ++ back).map idText) =
        idText id ++ Segments.slashed ',' (front.map idText) ++ _
      rw [List.map_append, Segments.slashed_append, List.append_assoc]

theorem pathText_snoc
    {front : List Id}
    (nonempty : front ≠ [])
    (id : Id) :
    pathText (front ++ [id]) = pathText front ++ ',' :: idText id := by
  rw [pathText_append nonempty]
  simp

theorem pathText_injective : Function.Injective pathText := by
  intro ids others same
  have tokens := congrArg (Segments.tokens ',') same
  rw [tokens_pathText, tokens_pathText] at tokens
  exact idText_injective.list_map tokens

theorem pathText_singleton (id : Id) : pathText [id] = idText id := by
  show idText id ++ [] = idText id
  exact List.append_nil _

/-- A path has no character that is special in a pattern. -/
theorem isLiteral_pathText
    {ids : List Id}
    {char : Char}
    (member : char ∈ pathText ids) :
    IsLiteral char := by
  by_cases comma : char = ','
  · rw [comma]
    exact ⟨by decide, by decide, by decide⟩
  · rcases (Segments.mem_tokens_iff comma).mp member with ⟨name, token, inName⟩
    rw [tokens_pathText] at token
    rcases List.mem_map.mp token with ⟨id, _, rfl⟩
    rcases mem_idText inName with digit | minus
    · refine ⟨?_, ?_, ?_⟩
      · rintro rfl
        cases digit
      · rintro rfl
        cases digit
      · rintro rfl
        cases digit
    · rw [minus]
      exact ⟨by decide, by decide, by decide⟩

/-! ## The ancestors in a path -/

variable {traced : Traced} {row orig newParent : AclRow}
  {ids origIds newIds more : List Id} {serialno newParentId : Id}

theorem row_unique
    (table : AclTable)
    {row other : AclRow}
    (member : row ∈ table.rows)
    (otherMember : other ∈ table.rows)
    (same : row.resourceId = other.resourceId) :
    row = other :=
  List.inj_on_of_nodup_map table.pkey member otherMember same

/-- A path spells ids that end with the own one, each with its own path. -/
structure Chain (traced : Traced) (row : AclRow) (ids : List Id) : Prop where
  path : row.path = pathText ids
  last : ∃ front, ids = front ++ [row.resourceId]
  nodup : ids.Nodup
  ancestor : ∀ front id back, ids = front ++ id :: back →
    Descends traced row.resourceId id ∧
      ∃ other ∈ traced.table.rows, other.resourceId = id ∧
        other.path = pathText (front ++ [id])

theorem PathsInStep.nodup
    (paths : PathsInStep traced)
    (member : row ∈ traced.table.rows)
    (spelled : row.path = pathText ids) :
    ids.Nodup := by
  have distinct := paths.distinct row member
  rw [spelled, tokens_pathText] at distinct
  exact distinct.of_map

theorem PathsInStep.exists_chain
    (paths : PathsInStep traced)
    (member : row ∈ traced.table.rows) :
    ∃ ids, Chain traced row ids := by
  induction length : row.path.length using Nat.strong_induction_on
    generalizing row with
  | _ size induction =>
      match above : traced.parent row.resourceId with
      | none =>
          have spelled : row.path = pathText [row.resourceId] := by
            rw [pathText_singleton]
            exact (paths.root row member above).2
          refine ⟨[row.resourceId], spelled, ⟨[], rfl⟩,
            paths.nodup member spelled, ?_⟩
          intro front id back equation
          rcases List.singleton_eq_append_iff.mp equation with
            ⟨rfl, same⟩ | ⟨_, absurd⟩
          · rcases List.cons.inj same with ⟨rfl, _⟩
            exact ⟨Relation.ReflTransGen.refl, row, member, rfl, spelled⟩
          · cases absurd
      | some parentId =>
          rcases paths.child row member parentId above with
            ⟨parentRow, parentMember, rfl, path⟩
          have shorter : parentRow.path.length < size := by
            rw [← length, path, List.length_append, List.length_cons]
            omega
          rcases induction _ shorter parentMember rfl with ⟨front, chain⟩
          have nonempty : front ≠ [] := by
            rcases chain.last with ⟨_, rfl⟩
            simp
          have spelled : row.path = pathText (front ++ [row.resourceId]) := by
            rw [path, chain.path, pathText_snoc nonempty]
          refine ⟨front ++ [row.resourceId], spelled, ⟨front, rfl⟩,
            paths.nodup member spelled, ?_⟩
          intro before id back equation
          rcases List.eq_nil_or_concat back with rfl | ⟨middle, final, rfl⟩
          · rcases List.append_inj' equation rfl with ⟨rfl, same⟩
            rcases List.cons.inj same with ⟨rfl, _⟩
            exact ⟨Relation.ReflTransGen.refl, row, member, rfl, spelled⟩
          · have split : front = before ++ id :: middle := by
              have regrouped : front ++ [row.resourceId] =
                  (before ++ id :: middle) ++ [final] := by
                rw [equation]
                simp
              exact (List.append_inj' regrouped rfl).1
            rcases chain.ancestor before id middle split with
              ⟨descends, rest⟩
            exact ⟨Relation.ReflTransGen.head above descends, rest⟩

theorem Chain.nonempty
    (chain : Chain traced row ids) :
    ids ≠ [] := by
  rcases chain.last with ⟨_, rfl⟩
  simp

theorem Chain.unique
    {others : List Id}
    (chain : Chain traced row ids)
    (other : Chain traced row others) :
    ids = others :=
  pathText_injective (chain.path.symm.trans other.path)

/-- A path in which an id occurs begins with the path of that id. -/
theorem Chain.prefix_iff_mem
    (origMember : orig ∈ traced.table.rows)
    (origChain : Chain traced orig origIds)
    (chain : Chain traced row ids) :
    origIds <+: ids ↔ orig.resourceId ∈ ids := by
  constructor
  · intro isPrefix
    rcases origChain.last with ⟨front, rfl⟩
    exact isPrefix.subset (List.mem_append_right _ (List.mem_singleton.mpr rfl))
  · intro member
    rcases List.append_of_mem member with ⟨front, back, rfl⟩
    rcases chain.ancestor front _ back rfl with
      ⟨_, other, otherMember, same, path⟩
    have equal := row_unique traced.table otherMember origMember same
    rw [equal, origChain.path] at path
    rw [pathText_injective path]
    exact ⟨back, by simp⟩

/-- The ids in a path are the resources that the row inherits from. -/
theorem Chain.descends_iff_mem
    (paths : PathsInStep traced)
    (member : row ∈ traced.table.rows)
    (chain : Chain traced row ids) :
    Descends traced row.resourceId serialno ↔ serialno ∈ ids := by
  constructor
  · intro descends
    have all : ∀ id, Descends traced id serialno →
        ∀ other ∈ traced.table.rows, other.resourceId = id →
        ∀ others, Chain traced other others → serialno ∈ others := by
      intro id descendsFrom
      induction descendsFrom using Relation.ReflTransGen.head_induction_on with
      | refl =>
          rintro other _ rfl others otherChain
          rcases otherChain.last with ⟨front, rfl⟩
          exact List.mem_append_right _ (List.mem_singleton.mpr rfl)
      | head above _ induction =>
          rintro other otherMember rfl others otherChain
          rcases paths.child other otherMember _ above with
            ⟨parentRow, parentMember, same, path⟩
          rcases paths.exists_chain parentMember with ⟨front, frontChain⟩
          have spelled : others = front ++ [other.resourceId] := by
            apply pathText_injective
            rw [← otherChain.path, path, frontChain.path,
              pathText_snoc frontChain.nonempty]
          rw [spelled]
          exact List.mem_append_left _
            (induction parentRow parentMember same front frontChain)
    exact all _ descends row member rfl ids chain
  · intro listed
    rcases List.append_of_mem listed with ⟨front, back, equation⟩
    exact (chain.ancestor front _ back equation).1

/-- The rows that the UPDATE matches. -/
theorem Chain.inSubtree_iff_prefix
    (origChain : Chain traced orig origIds)
    (chain : Chain traced row ids) :
    inSubtree orig.path row.path = true ↔ origIds <+: ids := by
  have literals : ∀ char ∈ orig.path ++ [','], IsLiteral char := by
    intro char member
    rcases List.mem_append.mp member with inPath | comma
    · rw [origChain.path] at inPath
      exact isLiteral_pathText inPath
    · rw [List.mem_singleton.mp comma]
      exact ⟨by decide, by decide, by decide⟩
  have pattern : orig.path ++ [',', '%'] = (orig.path ++ [',']) ++ ['%'] := by
    simp
  unfold inSubtree
  rw [Bool.or_eq_true, beq_iff_eq, pattern, like_prefix literals]
  constructor
  · rintro (⟨rest, equation⟩ | same)
    · have tokens := congrArg (Segments.tokens ',') equation
      rw [List.append_assoc, List.singleton_append,
        Segments.tokens_append_sep, origChain.path, chain.path,
        tokens_pathText, tokens_pathText] at tokens
      have isPrefix : origIds.map idText <+: ids.map idText :=
        ⟨_, tokens⟩
      rcases List.prefix_map_iff.mp isPrefix with ⟨others, othersPrefix, same⟩
      rw [idText_injective.list_map same]
      exact othersPrefix
    · rw [origChain.path, chain.path] at same
      rw [pathText_injective same]
  · rintro ⟨more, rfl⟩
    cases more with
    | nil =>
        right
        rw [chain.path, origChain.path, List.append_nil]
    | cons id more =>
        left
        rw [chain.path, pathText_append origChain.nonempty, origChain.path]
        exact ⟨idText id ++ Segments.slashed ',' (more.map idText), by simp⟩

/-! ## One move -/

theorem find_resourceId
    (table : AclTable)
    (member : row ∈ table.rows) :
    table.rows.find? (fun other => other.resourceId == row.resourceId) =
      some row :=
  Sql.find_key table.pkey member

@[simp]
theorem moved_resourceId (origPath newPath : Text) (row : AclRow) :
    (moved origPath newPath row).resourceId = row.resourceId := by
  unfold moved
  split
  · rfl
  · rfl

/-- The tokens of a path are its ids. -/
theorem Chain.idText_mem_tokens_iff
    (chain : Chain traced row ids) :
    idText serialno ∈ Segments.tokens ',' row.path ↔ serialno ∈ ids := by
  rw [chain.path, tokens_pathText]
  constructor
  · intro member
    rcases List.mem_map.mp member with ⟨id, listed, same⟩
    rw [← idText_injective same]
    exact listed
  · exact List.mem_map_of_mem

/-- No path is empty, and none begins with a comma. -/
theorem Chain.path_ne_nil
    (chain : Chain traced row ids) :
    row.path ≠ [] ∧ ∀ rest, ¬ row.path <+: ',' :: rest := by
  rw [chain.path]
  have nonempty := chain.nonempty
  cases ids with
  | nil => exact (nonempty rfl).elim
  | cons id ids =>
      have segment := isSegment_idText id
      show idText id ++ _ ≠ [] ∧ ∀ rest, ¬ idText id ++ _ <+: ',' :: rest
      match text : idText id with
      | [] => exact absurd text segment.1
      | char :: chars =>
          refine ⟨List.cons_ne_nil _ _, ?_⟩
          rintro rest ⟨_, equation⟩
          apply segment.2
          rw [text, (List.cons.inj equation).1]
          exact List.mem_cons_self ..

/-- The path of a row of the subtree after the UPDATE, whatever it replaces. -/
theorem Chain.moved_path
    (origChain : Chain traced orig origIds)
    (chain : Chain traced row (origIds ++ more))
    (newPath : Text) :
    (moved orig.path newPath row).path = newPath ++
      replaceFrom orig.path newPath 0
        (Segments.slashed ',' (more.map idText)) := by
  have isIn : inSubtree orig.path row.path = true :=
    (origChain.inSubtree_iff_prefix chain).mpr (List.prefix_append _ _)
  unfold moved
  rw [if_pos isIn]
  show replace orig.path newPath row.path = _
  unfold replace
  rw [if_neg origChain.path_ne_nil.1, chain.path,
    pathText_append origChain.nonempty, ← origChain.path,
    replaceFrom_append origChain.path_ne_nil.1]

theorem Chain.moved_of_not_prefix
    (origChain : Chain traced orig origIds)
    (chain : Chain traced row ids)
    (outside : ¬ origIds <+: ids)
    (newPath : Text) :
    moved orig.path newPath row = row := by
  unfold moved
  rw [if_neg]
  rw [origChain.inSubtree_iff_prefix chain]
  exact outside

/-- The old path is replaced at the front only. -/
theorem Chain.moved_path_clean
    (origChain : Chain traced orig origIds)
    (newChain : Chain traced newParent newIds)
    (member : row ∈ traced.table.rows)
    (chain : Chain traced row (origIds ++ more))
    (clean : newParent.path ++ ',' :: idText serialno = orig.path ∨
      ∀ row ∈ traced.table.rows, ∀ rest,
        row.path = orig.path ++ ',' :: rest → ¬ orig.path <:+: rest) :
    (moved orig.path (newParent.path ++ ',' :: idText serialno) row).path =
        newParent.path ++ ',' :: idText serialno ++
          Segments.slashed ',' (more.map idText) ∧
      (moved orig.path (newParent.path ++ ',' :: idText serialno) row).path =
        pathText (newIds ++ serialno :: more) := by
  have front : (moved orig.path (newParent.path ++ ',' :: idText serialno)
      row).path = newParent.path ++ ',' :: idText serialno ++
        Segments.slashed ',' (more.map idText) := by
    rw [origChain.moved_path chain]
    congr 1
    rcases clean with same | single
    · rw [same]
      exact replaceFrom_self origChain.path_ne_nil.1 _
    · apply replaceFrom_of_not_infix
      cases more with
      | nil =>
          intro occurs
          exact origChain.path_ne_nil.1 (List.infix_nil.mp occurs)
      | cons id more =>
          intro occurs
          rcases List.infix_cons_iff.mp occurs with first | later
          · exact origChain.path_ne_nil.2 _ first
          · apply single row member _ _ later
            rw [chain.path, pathText_append origChain.nonempty,
              ← origChain.path]
            rfl
  refine ⟨front, ?_⟩
  have regrouped : newIds ++ serialno :: more =
      newIds ++ [serialno] ++ more := by
    simp
  rw [front, regrouped, pathText_append (by simp),
    pathText_snoc newChain.nonempty, ← newChain.path]

/-- What a move does when no path becomes too long. -/
theorem dbmsChangeAclParent_eq
    (origMember : orig ∈ traced.table.rows)
    (origId : orig.resourceId = serialno)
    (newMember : newParent ∈ traced.table.rows)
    (newId : newParent.resourceId = newParentId)
    (short : ¬ ∃ row ∈ traced.table.rows,
      inSubtree orig.path row.path = true ∧
        tooLong (replace orig.path
          (newParent.path ++ ',' :: idText serialno) row.path) = true) :
    ∃ next, dbmsChangeAclParent traced.table serialno newParentId =
        .ok next ∧
      next.rows = traced.table.rows.map
        (moved orig.path (newParent.path ++ ',' :: idText serialno)) := by
  have fits : ¬ (traced.table.rows.any fun row =>
      inSubtree orig.path row.path &&
        tooLong (replace orig.path
          (newParent.path ++ ',' :: idText serialno) row.path)) = true := by
    intro any
    rcases List.any_eq_true.mp any with ⟨row, member, both⟩
    rw [Bool.and_eq_true] at both
    exact short ⟨row, member, both⟩
  have origFound := find_resourceId traced.table origMember
  have newFound := find_resourceId traced.table newMember
  rw [origId] at origFound
  rw [newId] at newFound
  unfold dbmsChangeAclParent
  rw [origFound]
  simp only [newFound]
  rw [if_neg fits]
  exact ⟨_, rfl, rfl⟩

/-- The state after a move. -/
def movedState (traced : Traced) (next : AclTable)
    (serialno newParentId : Id) : Traced where
  table := next
  parent := fun id =>
    if id = serialno then some newParentId else traced.parent id

/-- A clean move keeps the paths in step. -/
theorem PathsInStep.of_moved
    (paths : PathsInStep traced)
    (origMember : orig ∈ traced.table.rows)
    (newMember : newParent ∈ traced.table.rows)
    {next : AclTable}
    (rows : next.rows = traced.table.rows.map (moved orig.path
      (newParent.path ++ ',' :: idText orig.resourceId)))
    (outside : idText orig.resourceId ∉
      Segments.tokens ',' newParent.path)
    (clean : newParent.path ++ ',' :: idText orig.resourceId = orig.path ∨
      ∀ row ∈ traced.table.rows, ∀ rest,
        row.path = orig.path ++ ',' :: rest → ¬ orig.path <:+: rest) :
    PathsInStep (movedState traced next orig.resourceId
      newParent.resourceId) := by
  rcases paths.exists_chain origMember with ⟨origIds, origChain⟩
  rcases paths.exists_chain newMember with ⟨newIds, newChain⟩
  rw [newChain.idText_mem_tokens_iff] at outside
  have notPrefix : ¬ origIds <+: newIds := by
    rw [origChain.prefix_iff_mem origMember newChain]
    exact outside
  have mem_next : ∀ {row}, row ∈ traced.table.rows →
      moved orig.path (newParent.path ++ ',' :: idText orig.resourceId) row ∈
        next.rows := by
    intro row member
    rw [rows]
    exact List.mem_map_of_mem member
  have of_mem_next : ∀ row ∈ next.rows, ∃ old ∈ traced.table.rows,
      row = moved orig.path
        (newParent.path ++ ',' :: idText orig.resourceId) old := by
    intro row member
    rw [rows] at member
    rcases List.mem_map.mp member with ⟨old, oldMember, same⟩
    exact ⟨old, oldMember, same.symm⟩
  constructor
  case root =>
    intro row member noParent
    rcases of_mem_next row member with ⟨old, oldMember, rfl⟩
    rw [moved_resourceId] at noParent ⊢
    by_cases self : old.resourceId = orig.resourceId
    · simp [movedState, self] at noParent
    · have before : traced.parent old.resourceId = none := by
        simpa [movedState, self] using noParent
      rcases paths.root old oldMember before with ⟨isRoot, path⟩
      rcases paths.exists_chain oldMember with ⟨ids, chain⟩
      have single : ids = [old.resourceId] := by
        apply pathText_injective
        rw [← chain.path, path, pathText_singleton]
      have apart : ¬ origIds <+: ids := by
        rw [origChain.prefix_iff_mem origMember chain, single,
          List.mem_singleton]
        exact fun same => self same.symm
      rw [origChain.moved_of_not_prefix chain apart]
      exact ⟨isRoot, path⟩
  case child =>
    intro row member parentId above
    rcases of_mem_next row member with ⟨old, oldMember, rfl⟩
    rw [moved_resourceId] at above ⊢
    rcases paths.exists_chain oldMember with ⟨ids, chain⟩
    by_cases self : old.resourceId = orig.resourceId
    · -- The resource itself: its new parent keeps its own path.
      have parentId_eq : newParent.resourceId = parentId := by
        simpa [movedState, self] using above
      have equal := row_unique traced.table oldMember origMember self
      have same : origIds = ids := origChain.unique (equal ▸ chain)
      have whole : Chain traced old (origIds ++ []) := by
        rw [List.append_nil, same]
        exact chain
      have path := (origChain.moved_path_clean newChain oldMember whole
        clean).1
      refine ⟨_, mem_next newMember, ?_, ?_⟩
      · rw [moved_resourceId]
        exact parentId_eq
      · rw [path, origChain.moved_of_not_prefix newChain notPrefix, self]
        simp
    · have before : traced.parent old.resourceId = some parentId := by
        simpa [movedState, self] using above
      rcases paths.child old oldMember parentId before with
        ⟨parentRow, parentMember, parentId_eq, path⟩
      rcases paths.exists_chain parentMember with ⟨front, frontChain⟩
      have split : ids = front ++ [old.resourceId] := by
        apply pathText_injective
        rw [← chain.path, path, frontChain.path,
          pathText_snoc frontChain.nonempty]
      refine ⟨_, mem_next parentMember, ?_, ?_⟩
      · rw [moved_resourceId]
        exact parentId_eq
      · by_cases isPrefix : origIds <+: front
        · rcases isPrefix with ⟨more, rfl⟩
          have whole : Chain traced old
              (origIds ++ (more ++ [old.resourceId])) := by
            rw [← List.append_assoc, ← split]
            exact chain
          have movedOld := (origChain.moved_path_clean newChain oldMember
            whole clean).2
          have movedParent := (origChain.moved_path_clean newChain
            parentMember frontChain clean).2
          have regrouped : newIds ++ orig.resourceId ::
              (more ++ [old.resourceId]) =
                (newIds ++ orig.resourceId :: more) ++ [old.resourceId] := by
            simp
          rw [movedOld, movedParent, regrouped, pathText_snoc (by simp)]
        · have apart : ¬ origIds <+: ids := by
            rw [origChain.prefix_iff_mem origMember chain, split,
              List.mem_append, List.mem_singleton]
            rintro (inFront | last)
            · exact isPrefix
                ((origChain.prefix_iff_mem origMember frontChain).mpr inFront)
            · exact self last.symm
          rw [origChain.moved_of_not_prefix chain apart,
            origChain.moved_of_not_prefix frontChain isPrefix]
          exact path
  case distinct =>
    intro row member
    rcases of_mem_next row member with ⟨old, oldMember, rfl⟩
    rcases paths.exists_chain oldMember with ⟨ids, chain⟩
    by_cases isPrefix : origIds <+: ids
    · rcases isPrefix with ⟨more, rfl⟩
      rw [(origChain.moved_path_clean newChain oldMember chain clean).2,
        tokens_pathText]
      apply List.Nodup.map idText_injective
      rcases origChain.last with ⟨front, split⟩
      have distinct := chain.nodup
      rw [split, List.append_assoc, List.singleton_append] at distinct
      rw [List.nodup_append]
      refine ⟨newChain.nodup, distinct.of_append_right, ?_⟩
      intro id inNew other inOld same
      rw [← same] at inOld
      rcases List.mem_cons.mp inOld with isOrig | inMore
      · exact outside (isOrig ▸ inNew)
      · -- A descendant among the ancestors of the new parent brings the
        -- resource itself among them.
        rcases List.append_of_mem inNew with ⟨before, behind, newSplit⟩
        rcases newChain.ancestor before id behind newSplit with
          ⟨_, first, firstMember, firstId, firstPath⟩
        rcases List.append_of_mem inMore with ⟨middle, back, oldSplit⟩
        have regrouped : origIds ++ more =
            (origIds ++ middle) ++ id :: back := by
          rw [oldSplit, List.append_assoc]
        rcases chain.ancestor _ id back regrouped with
          ⟨_, second, secondMember, secondId, secondPath⟩
        have equal := row_unique traced.table firstMember secondMember
          (firstId.trans secondId.symm)
        rw [equal, secondPath] at firstPath
        have prefixes := pathText_injective firstPath
        apply outside
        rw [newSplit]
        have inBefore : orig.resourceId ∈ before ++ [id] := by
          rw [← prefixes, split]
          simp
        rcases List.mem_append.mp inBefore with early | last
        · exact List.mem_append_left _ early
        · rw [List.mem_singleton.mp last]
          exact List.mem_append_right _ (List.mem_cons_self ..)
    · rw [origChain.moved_of_not_prefix chain isPrefix]
      exact paths.distinct old oldMember

/-- A clean move changes exactly the paths of the subtree. -/
theorem PathsInStep.reparents
    (paths : PathsInStep traced)
    (origMember : orig ∈ traced.table.rows)
    (newMember : newParent ∈ traced.table.rows)
    {next : AclTable}
    (rows : next.rows = traced.table.rows.map (moved orig.path
      (newParent.path ++ ',' :: idText orig.resourceId)))
    (clean : newParent.path ++ ',' :: idText orig.resourceId = orig.path ∨
      ∀ row ∈ traced.table.rows, ∀ rest,
        row.path = orig.path ++ ',' :: rest → ¬ orig.path <:+: rest)
    (member : row ∈ traced.table.rows) :
    (Descends traced row.resourceId orig.resourceId →
      ∃ rest, row.path = orig.path ++ rest ∧
        (⟨row.resourceId, newParent.path ++
          ',' :: idText orig.resourceId ++ rest⟩ : AclRow) ∈ next.rows) ∧
    (¬ Descends traced row.resourceId orig.resourceId →
      row ∈ next.rows) := by
  rcases paths.exists_chain origMember with ⟨origIds, origChain⟩
  rcases paths.exists_chain newMember with ⟨newIds, newChain⟩
  rcases paths.exists_chain member with ⟨ids, chain⟩
  rw [chain.descends_iff_mem paths member,
    ← origChain.prefix_iff_mem origMember chain, rows]
  constructor
  · rintro ⟨more, rfl⟩
    refine ⟨Segments.slashed ',' (more.map idText), ?_, ?_⟩
    · rw [chain.path, pathText_append origChain.nonempty, origChain.path]
    · have path := (origChain.moved_path_clean newChain member chain clean).1
      apply List.mem_map.mpr
      refine ⟨row, member, ?_⟩
      rw [← path]
      exact congrArg₂ AclRow.mk (moved_resourceId _ _ row) rfl
  · intro outside
    apply List.mem_map.mpr
    exact ⟨row, member, origChain.moved_of_not_prefix chain outside _⟩

/-- What follows for a move that fits the column. -/
theorem PathsInStep.movedState_iff
    (paths : PathsInStep traced)
    (origMember : orig ∈ traced.table.rows)
    (newMember : newParent ∈ traced.table.rows)
    {next : AclTable}
    (succeeds : dbmsChangeAclParent traced.table orig.resourceId
      newParent.resourceId = .ok next)
    (rows : next.rows = traced.table.rows.map (moved orig.path
      (newParent.path ++ ',' :: idText orig.resourceId)))
    (onlyOrig : ∀ row ∈ traced.table.rows,
      row.resourceId = orig.resourceId → row = orig)
    (onlyNew : ∀ row ∈ traced.table.rows,
      row.resourceId = newParent.resourceId → row = newParent)
    (short : ¬ ∃ row ∈ traced.table.rows,
      inSubtree orig.path row.path = true ∧
        tooLong (replace orig.path
          (newParent.path ++ ',' :: idText orig.resourceId) row.path) =
          true) :
    PathsInStep (movedState traced next orig.resourceId
        newParent.resourceId) ∧
      ReparentsExactly traced
        (.changeAclParent orig.resourceId newParent.resourceId) ↔
    MovesCleanly traced
      (.changeAclParent orig.resourceId newParent.resourceId) := by
  rcases paths.exists_chain origMember with ⟨origIds, origChain⟩
  constructor
  · rintro ⟨next_paths, reparents⟩
    intro row member same other otherMember otherSame
    rw [onlyOrig row member same, onlyNew other otherMember otherSame]
    refine Or.inr ⟨?_, ?_⟩
    · -- Below itself, the resource would have its id in its path twice.
      intro inside
      have whole : Chain traced orig (origIds ++ []) := by
        rw [List.append_nil]
        exact origChain
      have path := origChain.moved_path whole
        (newParent.path ++ ',' :: idText orig.resourceId)
      have movedMember : moved orig.path
          (newParent.path ++ ',' :: idText orig.resourceId) orig ∈
            next.rows := by
        rw [rows]
        exact List.mem_map_of_mem origMember
      have distinct := next_paths.distinct _ movedMember
      rw [path] at distinct
      have nothing : replaceFrom orig.path
          (newParent.path ++ ',' :: idText orig.resourceId) 0
          (Segments.slashed ',' (([] : List Id).map idText)) = [] := rfl
      rw [nothing, List.append_nil, Segments.tokens_append_sep,
        Segments.tokens_segment (isSegment_idText _),
        List.nodup_append] at distinct
      exact distinct.2.2 _ inside _ (List.mem_singleton.mpr rfl) rfl
    · by_cases unchanged :
          newParent.path ++ ',' :: idText orig.resourceId = orig.path
      · exact Or.inl unchanged
      · refine Or.inr ?_
        intro deep deepMember rest deepPath occurs
        rcases paths.exists_chain deepMember with ⟨ids, chain⟩
        have isIn : inSubtree orig.path deep.path = true := by
          unfold inSubtree
          rw [Bool.or_eq_true]
          left
          have pattern : orig.path ++ [',', '%'] =
              (orig.path ++ [',']) ++ ['%'] := by
            simp
          rw [pattern, like_prefix]
          · exact ⟨rest, by rw [deepPath]; simp⟩
          · intro char inPattern
            rcases List.mem_append.mp inPattern with inPath | comma
            · rw [origChain.path] at inPath
              exact isLiteral_pathText inPath
            · rw [List.mem_singleton.mp comma]
              exact ⟨by decide, by decide, by decide⟩
        have isPrefix := (origChain.inSubtree_iff_prefix chain).mp isIn
        have descends : Descends traced deep.resourceId orig.resourceId :=
          (chain.descends_iff_mem paths deepMember).mpr
            ((origChain.prefix_iff_mem origMember chain).mp isPrefix)
        rcases ((reparents next succeeds orig origMember rfl newParent
          newMember rfl).2 deep deepMember).1 descends with
          ⟨tail, split, nextMember⟩
        have tail_eq : tail = ',' :: rest := by
          rw [deepPath] at split
          exact (List.append_cancel_left split).symm
        have movedMember : moved orig.path
            (newParent.path ++ ',' :: idText orig.resourceId) deep ∈
              next.rows := by
          rw [rows]
          exact List.mem_map_of_mem deepMember
        have equal := row_unique next nextMember movedMember
          (moved_resourceId _ _ deep).symm
        have replaced := congrArg AclRow.path equal
        unfold moved replace at replaced
        rw [if_pos isIn, if_neg origChain.path_ne_nil.1] at replaced
        simp only at replaced
        rw [deepPath, replaceFrom_append origChain.path_ne_nil.1,
          tail_eq] at replaced
        have fixed := (List.append_cancel_left replaced).symm
        have occursLater : orig.path <:+: ',' :: rest :=
          occurs.trans (List.suffix_cons ',' rest).isInfix
        exact unchanged (eq_of_replaceFrom_eq origChain.path_ne_nil.1
          occursLater fixed)
  · intro cleanly
    rcases cleanly orig origMember rfl newParent newMember rfl with
      long | ⟨outside, clean⟩
    · exact absurd long short
    · refine ⟨paths.of_moved origMember newMember rows outside clean, ?_⟩
      intro other otherSucceeds row member same parentRow parentMember
        parentSame
      rw [succeeds] at otherSucceeds
      cases otherSucceeds
      rw [onlyOrig row member same, onlyNew parentRow parentMember parentSame]
      constructor
      · rw [rows, List.map_map]
        apply List.map_congr_left
        intro kept _
        exact moved_resourceId _ _ kept
      · intro kept keptMember
        exact paths.reparents origMember newMember rows clean keptMember

/-- A new row below a parent keeps the paths in step. -/
theorem PathsInStep.inserted
    (paths : PathsInStep traced)
    (fresh : serialno ∉ traced.table.rows.map AclRow.resourceId)
    (newMember : newParent ∈ traced.table.rows)
    {next : AclTable}
    (rows : next.rows = traced.table.rows ++
      [⟨serialno, newParent.path ++ ',' :: idText serialno⟩]) :
    PathsInStep (movedState traced next serialno newParent.resourceId) := by
  have different : ∀ row ∈ traced.table.rows, row.resourceId ≠ serialno := by
    intro row member same
    exact fresh (List.mem_map.mpr ⟨row, member, same⟩)
  have cases_next : ∀ row ∈ next.rows, row ∈ traced.table.rows ∨
      row = ⟨serialno, newParent.path ++ ',' :: idText serialno⟩ := by
    intro row member
    rw [rows, List.mem_append, List.mem_singleton] at member
    exact member
  have kept : ∀ row ∈ traced.table.rows, row ∈ next.rows := by
    intro row member
    rw [rows]
    exact List.mem_append_left _ member
  constructor
  case root =>
    intro row member noParent
    rcases cases_next row member with old | rfl
    · apply paths.root row old
      simpa [movedState, different row old] using noParent
    · simp [movedState] at noParent
  case child =>
    intro row member parentId above
    rcases cases_next row member with old | rfl
    · have before : traced.parent row.resourceId = some parentId := by
        simpa [movedState, different row old] using above
      rcases paths.child row old parentId before with
        ⟨parentRow, parentMember, rest⟩
      exact ⟨parentRow, kept parentRow parentMember, rest⟩
    · have parentId_eq : newParent.resourceId = parentId := by
        simpa [movedState] using above
      exact ⟨newParent, kept newParent newMember, parentId_eq, rfl⟩
  case distinct =>
    intro row member
    rcases cases_next row member with old | rfl
    · exact paths.distinct row old
    · rcases paths.exists_chain newMember with ⟨ids, chain⟩
      have absent : serialno ∉ ids := by
        intro listed
        rcases List.append_of_mem listed with ⟨front, back, equation⟩
        rcases chain.ancestor front _ back equation with
          ⟨_, other, otherMember, same, _⟩
        exact different other otherMember same
      show (Segments.tokens ',' (newParent.path ++ ',' ::
        idText serialno)).Nodup
      rw [chain.path, ← pathText_snoc chain.nonempty, tokens_pathText]
      apply List.Nodup.map idText_injective
      rw [List.nodup_append]
      refine ⟨chain.nodup, List.nodup_singleton _, ?_⟩
      intro id inIds other inSingle same
      rw [List.mem_singleton] at inSingle
      rw [same, inSingle] at inIds
      exact absent inIds

theorem PathsInStep.inherit
    (paths : PathsInStep traced)
    (fresh : serialno ∉ traced.table.rows.map AclRow.resourceId)
    {next : AclTable}
    (succeeds : dbmsInheritParentAces traced.table serialno newParentId =
      .ok next) :
    PathsInStep
      ⟨next, placed next traced.parent serialno newParentId⟩ := by
  unfold dbmsInheritParentAces at succeeds
  rw [dif_neg fresh] at succeeds
  match found : traced.table.rows.find? fun a =>
      a.resourceId == newParentId with
  | none =>
      rw [found] at succeeds
      cases succeeds
      unfold placed
      rw [if_neg fresh]
      exact paths
  | some newParent =>
      rw [found] at succeeds
      rcases ite_error_eq_ok.mp succeeds with ⟨_, inserted⟩
      cases inserted
      have newMember := List.mem_of_find?_eq_some found
      have newId : newParent.resourceId = newParentId := by
        simpa using List.find?_some found
      unfold placed
      rw [if_pos (by simp), ← newId]
      exact paths.inserted fresh newMember rfl

theorem PathsInStep.after_inheritAces
    (paths : PathsInStep traced)
    (serialno parentId : Id) :
    PathsInStep (after traced (.inheritAces serialno parentId)) := by
  unfold after
  match outcome : step traced.table (.inheritAces serialno parentId) with
  | .error _ => exact paths
  | .ok next =>
      rcases ite_error_eq_ok.mp outcome with ⟨_, succeeds⟩
      by_cases listed : serialno ∈ traced.table.rows.map AclRow.resourceId
      · unfold dbmsInheritParentAces at succeeds
        rw [dif_pos listed] at succeeds
        cases succeeds
        simp only [parentAfter, if_pos listed]
        exact paths
      · simp only [parentAfter, if_neg listed]
        exact paths.inherit listed succeeds

/-- A move keeps the paths in step if and only if it is a clean one. -/
theorem PathsInStep.after_changeAclParent
    (paths : PathsInStep traced)
    (serialno newParentId : Id) :
    PathsInStep (after traced (.changeAclParent serialno newParentId)) ∧
        ReparentsExactly traced (.changeAclParent serialno newParentId) ↔
      MovesCleanly traced (.changeAclParent serialno newParentId) := by
  match found : traced.table.rows.find? fun row =>
      row.resourceId == serialno with
  | none =>
      -- A resource without a row is put below the parent like a new one.
      have fresh : ∀ row ∈ traced.table.rows, row.resourceId ≠ serialno := by
        intro row member same
        have differs := List.find?_eq_none.mp found row member
        exact differs (by simp [same])
      have freshIds :
          serialno ∉ traced.table.rows.map AclRow.resourceId := by
        intro listed
        rcases List.mem_map.mp listed with ⟨row, member, same⟩
        exact fresh row member same
      apply iff_of_true
      · constructor
        · unfold after
          match outcome : step traced.table
              (.changeAclParent serialno newParentId) with
          | .error _ => exact paths
          | .ok next =>
              have succeeds : dbmsInheritParentAces traced.table serialno
                  newParentId = .ok next := by
                have unfolded := outcome
                simp only [step, dbmsChangeAclParent, found] at unfolded
                exact unfolded
              exact paths.inherit freshIds succeeds
        · intro next _ orig origMember origId
          exact absurd origId (fresh orig origMember)
      · intro orig origMember origId
        exact absurd origId (fresh orig origMember)
  | some orig =>
      have origMember := List.mem_of_find?_eq_some found
      have origId : orig.resourceId = serialno := by
        simpa using List.find?_some found
      match foundNew : traced.table.rows.find? fun row =>
          row.resourceId == newParentId with
      | none =>
          have noParent : ∀ row ∈ traced.table.rows,
              row.resourceId ≠ newParentId := by
            intro row member same
            have differs := List.find?_eq_none.mp foundNew row member
            exact differs (by simp [same])
          apply iff_of_true
          · constructor
            · have fails : step traced.table
                  (.changeAclParent serialno newParentId) =
                    .error ⟨httpInternalServerError,
                      "invalid parent specified in change_acl_parent"⟩ := by
                simp only [step, dbmsChangeAclParent, found, foundNew]
              unfold after
              rw [fails]
              exact paths
            · intro _ _ _ _ _ newParent newMember newId
              exact absurd newId (noParent newParent newMember)
          · intro _ _ _ newParent newMember newId
            exact absurd newId (noParent newParent newMember)
      | some newParent =>
          have newMember := List.mem_of_find?_eq_some foundNew
          have newId : newParent.resourceId = newParentId := by
            simpa using List.find?_some foundNew
          have onlyOrig : ∀ row ∈ traced.table.rows,
              row.resourceId = serialno → row = orig :=
            fun row member same =>
              row_unique traced.table member origMember
                (same.trans origId.symm)
          have onlyNew : ∀ row ∈ traced.table.rows,
              row.resourceId = newParentId → row = newParent :=
            fun row member same =>
              row_unique traced.table member newMember
                (same.trans newId.symm)
          by_cases long : ∃ row ∈ traced.table.rows,
              inSubtree orig.path row.path = true ∧
                tooLong (replace orig.path
                  (newParent.path ++ ',' :: idText serialno) row.path) = true
          · have any : (traced.table.rows.any fun row =>
                inSubtree orig.path row.path &&
                  tooLong (replace orig.path
                    (newParent.path ++ ',' :: idText serialno) row.path)) =
                true := by
              rcases long with ⟨row, member, isIn, isLong⟩
              rw [List.any_eq_true]
              exact ⟨row, member, by rw [isIn, isLong]; rfl⟩
            have fails : dbmsChangeAclParent traced.table serialno
                newParentId = .error ⟨httpInternalServerError,
                  "DBMS Error during update to acl_inheritance (moving subtree)"⟩ := by
              unfold dbmsChangeAclParent
              rw [found]
              simp only [foundNew]
              rw [if_pos any]
            apply iff_of_true
            · constructor
              · unfold after
                rw [show step traced.table
                  (.changeAclParent serialno newParentId) = _ from fails]
                exact paths
              · intro next succeeds
                rw [fails] at succeeds
                cases succeeds
            · intro row member same other otherMember otherSame
              rw [onlyOrig row member same,
                onlyNew other otherMember otherSame]
              exact Or.inl long
          · rcases dbmsChangeAclParent_eq origMember origId newMember newId
              long with ⟨next, succeeds, rows⟩
            subst origId
            subst newId
            have listed : orig.resourceId ∈
                next.rows.map AclRow.resourceId := by
              rw [rows, List.map_map]
              exact List.mem_map.mpr
                ⟨orig, origMember, moved_resourceId _ _ _⟩
            have state : after traced
                (.changeAclParent orig.resourceId newParent.resourceId) =
                  movedState traced next orig.resourceId
                    newParent.resourceId := by
              unfold after
              rw [show step traced.table (.changeAclParent orig.resourceId
                newParent.resourceId) = _ from succeeds]
              simp only [parentAfter, placed, if_pos listed]
              rfl
            rw [state]
            exact paths.movedState_iff origMember newMember succeeds rows
              onlyOrig onlyNew long

/-- What one step of either kind does to the paths. -/
theorem PathsInStep.after_iff
    (paths : PathsInStep traced)
    (taken : Step) :
    PathsInStep (after traced taken) ∧ ReparentsExactly traced taken ↔
      MovesCleanly traced taken := by
  cases taken with
  | inheritAces serialno parentId =>
      apply iff_of_true
      · exact ⟨paths.after_inheritAces serialno parentId, trivial⟩
      · trivial
  | changeAclParent serialno newParentId =>
      exact paths.after_changeAclParent serialno newParentId

/-! ## Runs from the initial database -/

/-- The resources that the migrations put directly below the root. -/
structure InitialChildren where
  ids : List Id
  distinct : (rootCollectionId :: ids).Nodup

variable {children : InitialChildren}

/-- The row of a resource directly below the root. -/
def childRow (id : Id) : AclRow :=
  ⟨id, idText rootCollectionId ++ ',' :: idText id⟩

theorem map_resourceId_childRow (ids : List Id) :
    (ids.map childRow).map AclRow.resourceId = ids := by
  rw [List.map_map]
  exact List.map_id ids

def start (children : InitialChildren) : Traced where
  table :=
    { rows := ⟨rootCollectionId, idText rootCollectionId⟩ ::
        children.ids.map childRow
      pkey := by
        rw [List.map_cons, map_resourceId_childRow]
        exact children.distinct }
  parent := fun id =>
    if id ∈ children.ids then some rootCollectionId else none

theorem rootCollectionId_not_mem : rootCollectionId ∉ children.ids :=
  (List.nodup_cons.mp children.distinct).1

theorem pathsInStep_start : PathsInStep (start children) := by
  have cases_row : ∀ row ∈ (start children).table.rows,
      row = ⟨rootCollectionId, idText rootCollectionId⟩ ∨
        ∃ id ∈ children.ids, row = childRow id := by
    intro row member
    rcases List.mem_cons.mp member with root | child
    · exact Or.inl root
    · rcases List.mem_map.mp child with ⟨id, listed, same⟩
      exact Or.inr ⟨id, listed, same.symm⟩
  constructor
  case root =>
    intro row member noParent
    rcases cases_row row member with rfl | ⟨id, listed, rfl⟩
    · exact ⟨rfl, rfl⟩
    · have above : (start children).parent id = some rootCollectionId :=
        if_pos listed
      have contradiction := above.symm.trans noParent
      cases contradiction
  case child =>
    intro row member parentId above
    rcases cases_row row member with rfl | ⟨id, listed, rfl⟩
    · have noParent : (start children).parent rootCollectionId = none :=
        if_neg rootCollectionId_not_mem
      have contradiction := noParent.symm.trans above
      cases contradiction
    · have isRoot : (start children).parent id = some rootCollectionId :=
        if_pos listed
      have same := Option.some.inj (isRoot.symm.trans above)
      exact ⟨⟨rootCollectionId, idText rootCollectionId⟩,
        List.mem_cons_self .., same, rfl⟩
  case distinct =>
    intro row member
    rcases cases_row row member with rfl | ⟨id, listed, rfl⟩
    · rw [Segments.tokens_segment (isSegment_idText _)]
      exact List.nodup_singleton _
    · have different : rootCollectionId ≠ id := by
        intro same
        exact rootCollectionId_not_mem (same ▸ listed)
      show (Segments.tokens ','
        (idText rootCollectionId ++ ',' :: idText id)).Nodup
      rw [Segments.tokens_append_sep,
        Segments.tokens_segment (isSegment_idText _),
        Segments.tokens_segment (isSegment_idText _)]
      show [idText rootCollectionId, idText id].Nodup
      rw [List.nodup_cons, List.mem_singleton]
      exact ⟨fun same => different (idText_injective same),
        List.nodup_singleton _⟩

/--
In a run from the initial database every path is the parent's with the own id
after it, and every move replaces exactly the leading paths, if and only if
every move is a clean one.
-/
theorem throughout_pathsInStep_iff
    (children : InitialChildren)
    (steps : List Step) :
    Runs.Throughout after PathsInStep (start children) steps ∧
        Runs.Guarded after ReparentsExactly (start children) steps ↔
      Runs.Guarded after MovesCleanly (start children) steps := by
  apply Runs.throughout_and_guarded_iff_guarded
  · exact pathsInStep_start
  · intro traced taken paths
    exact paths.after_iff taken

/--
The collection 13 with the path `2,13` gets 22 below it, which gets 130; then
13 is moved below 8.
-/
def repeatedPathRun : List Step :=
  [.inheritAces 13 2, .inheritAces 22 13, .inheritAces 130 22,
    .changeAclParent 13 8]

/-- The path `2,13,22,130` has `2,13` in it twice. -/
theorem not_pathsInStep_of_repeated_path :
    ¬ ∀ (children : InitialChildren) (steps : List Step),
        Runs.Throughout after PathsInStep (start children) steps ∧
          Runs.Guarded after ReparentsExactly (start children) steps := by
  intro always
  let children : InitialChildren := ⟨[7, 8], by decide⟩
  have throughout := (always children repeatedPathRun).1
  have paths : PathsInStep (repeatedPathRun.foldl after (start children)) :=
    throughout.2.2.2.2
  have member : (⟨130, "2,8,13,22,8,130".toList⟩ : AclRow) ∈
      (repeatedPathRun.foldl after (start children)).table.rows := by
    decide
  have distinct := paths.distinct _ member
  revert distinct
  decide

end Limestone.AclPaths
