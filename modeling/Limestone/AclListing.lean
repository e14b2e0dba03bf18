import Limestone.AclStore
import Limestone.FirstMatch
import Limestone.Library.ControlBreak

/-!
# What `dbms_get_acl` lists

The rows of an ACE differ in the privilege only and sort together, so the
loop of `dbms_get_acl` makes one ACE of them.  The list is in the order in
which the access checks look for the first match.
-/

namespace Limestone.AclListing

open Library
open DbmsAcl
open AclDecision
open FirstMatch
open AclStore
open DbmsBind
open PathSearch
open ReverseLookup

/-! ## Rows -/

/-- The id where the loop breaks. -/
def aceId (row : GetAclRow) : Id :=
  row.ace.id

/-- A row of the joins. -/
structure IsRow (store : AceStore) (serialno : Id) (row : GetAclRow) :
    Prop where
  listed : row.ace ∈ store.aces
  carries : (row.ace.id, row.privilegeId) ∈ store.davAcesPrivileges
  named : (row.ace.principalId, row.principal) ∈ store.principals
  inherited : row.parRes ∈ inheritedRes store.toAclTables serialno
  attached : row.parRes.resourceId = row.ace.resourceId
  ns : row.ns = (store.namespaces.find? fun other =>
    other.1 == (store.property row.ace.id).1).map Prod.snd
  propertyName : row.propertyName = (store.property row.ace.id).2

section Rows

variable {store : AceStore} {serialno : Id} {row other : GetAclRow}

theorem mem_getAclRows :
    row ∈ getAclRows store serialno ↔ IsRow store serialno row := by
  simp only [getAclRows, List.mem_flatMap, List.mem_map, List.mem_filter,
    beq_iff_eq]
  constructor
  · rintro ⟨ace, listed, ⟨id, privilegeId⟩, ⟨carries, held⟩,
      ⟨principalId, name⟩, ⟨named, same⟩, res, ⟨inherited, attached⟩, rfl⟩
    rcases held with rfl
    rcases same with rfl
    exact ⟨listed, carries, named, inherited, attached, rfl, rfl⟩
  · intro found
    refine ⟨row.ace, found.listed, (row.ace.id, row.privilegeId),
      ⟨found.carries, rfl⟩, (row.ace.principalId, row.principal),
      ⟨found.named, rfl⟩, row.parRes, ⟨found.inherited, found.attached⟩, ?_⟩
    rw [← found.ns, ← found.propertyName]

theorem mem_aclInheritance_of_mem_inheritedRes
    {tables : AclTables} {res : AclInheritance}
    (inherited : res ∈ inheritedRes tables serialno) :
    res ∈ tables.aclInheritance :=
  (mem_inheritedRes.mp inherited).1

/-- The resource of an ACE has one path. -/
theorem IsRow.parRes_eq
    (first : IsRow store serialno row) (second : IsRow store serialno other)
    (same : row.ace = other.ace) :
    row.parRes = other.parRes := by
  apply List.inj_on_of_nodup_map store.aclInheritancePkey
  · exact mem_aclInheritance_of_mem_inheritedRes first.inherited
  · exact mem_aclInheritance_of_mem_inheritedRes second.inherited
  · rw [first.attached, second.attached, same]

/-- Rows of one ACE differ in the privilege only. -/
theorem IsRow.eq_of_aceId
    (first : IsRow store serialno row) (second : IsRow store serialno other)
    (same : aceId other = aceId row) :
    other = { row with privilegeId := other.privilegeId } := by
  have ace : other.ace = row.ace :=
    List.inj_on_of_nodup_map store.acesPkey second.listed first.listed same
  have parRes := second.parRes_eq first ace
  have principal : other.principal = row.principal := by
    have named := second.named
    rw [ace] at named
    have pairs := List.inj_on_of_nodup_map store.principalsPkey named
      first.named rfl
    exact congrArg Prod.snd pairs
  have ns : other.ns = row.ns := by rw [second.ns, first.ns, ace]
  have name : other.propertyName = row.propertyName := by
    rw [second.propertyName, first.propertyName, ace]
  rcases other with ⟨otherPrincipal, otherNs, otherName, otherAce, _, _⟩
  simp only at ace parRes principal ns name
  rw [ace, parRes, principal, ns, name]

/-- Rows of one ACE sort alike, and rows of different ACEs do not. -/
theorem IsRow.aceId_eq_iff
    (first : IsRow store serialno row)
    (second : IsRow store serialno other) :
    aceId row = aceId other ↔ row.sortKey = other.sortKey := by
  constructor
  · intro same
    rw [second.eq_of_aceId first same]
    rfl
  · intro same
    exact aceKey_protectedFirst.aceId _ _ same

end Rows

/-! ## The loop -/

section Loop

variable {modDav : ModDav} {uri : Id → Text} {serialno : Id}

/-- A row is put into the variables when all parents have URIs. -/
def absorbed (modDav : ModDav) (uri : Id → Text) (serialno : Id)
    (ace : ListedAce) (row : GetAclRow) : ListedAce :=
  absorb modDav
    (if row.parRes.resourceId ≠ serialno then
      some (uri row.parRes.resourceId)
    else none) ace row

/-- The body of the loop when all parents have URIs. -/
def stepped (modDav : ModDav) (uri : Id → Text) (serialno : Id)
    (loop : GetAclLoop) (row : GetAclRow) : GetAclLoop :=
  let loop := loop.begin row
  { loop with
    ace := absorbed modDav uri serialno loop.ace row
    acePending := true }

/-- The loop goes through when all parents of its rows have URIs. -/
theorem foldlM_step
    {reverseLookup : Id → Option Text} {rows : List GetAclRow}
    (looked : ∀ row ∈ rows, row.parRes.resourceId ≠ serialno →
      reverseLookup row.parRes.resourceId =
        some (uri row.parRes.resourceId))
    (loop : GetAclLoop) :
    rows.foldlM (GetAclLoop.step modDav reverseLookup serialno) loop =
      some (rows.foldl (stepped modDav uri serialno) loop) := by
  induction rows generalizing loop with
  | nil => rfl
  | cons row rows induction =>
      have here : GetAclLoop.step modDav reverseLookup serialno loop row =
          some (stepped modDav uri serialno loop row) := by
        rw [GetAclLoop.step, parentUri, stepped, absorbed]
        by_cases other : row.parRes.resourceId ≠ serialno
        · rw [if_pos other, if_pos other, looked row List.mem_cons_self other]
          rfl
        · rw [if_neg other, if_neg other]
          rfl
      rw [List.foldlM_cons, here, List.foldl_cons]
      exact induction (fun other member =>
        looked other (List.mem_cons_of_mem _ member)) _

/-- The ACE that is read from rows with some privileges. -/
def described (modDav : ModDav) (uri : Id → Text) (serialno : Id)
    (row : GetAclRow) (privileges : List Id) : ListedAce where
  principal := davReposGetPrinByName modDav row.principal
  property :=
    match row.propertyName with
    | none | some [] => none
    | some name => some (row.ns, name)
  privileges := privileges
  isDeny := row.ace.grantdeny != aclGrant
  inherited :=
    if row.parRes.resourceId ≠ serialno then
      some (uri row.parRes.resourceId)
    else none
  isProtected := row.ace.isProtected

/-- The ACE that the loop makes of a run of rows. -/
def collected (modDav : ModDav) (uri : Id → Text) (serialno : Id)
    (run : List GetAclRow) : ListedAce :=
  run.foldl (absorbed modDav uri serialno) GetAclLoop.start.ace

/-- Nothing of the last ACE is left when another begins. -/
theorem absorb_begin (ace : ListedAce) (row : GetAclRow) :
    absorbed modDav uri serialno
        { ace with privileges := [], inherited := none, property := none }
        row =
      collected modDav uri serialno [row] :=
  rfl

theorem absorb_start (row : GetAclRow) :
    collected modDav uri serialno [row] =
      described modDav uri serialno row [row.privilegeId] := by
  show absorbed modDav uri serialno GetAclLoop.start.ace row = _
  rw [absorbed, absorb, described]
  congr 1
  exact Option.or_none

/-- Another row of an ACE adds its privilege. -/
theorem absorb_described
    (row : GetAclRow) (privileges : List Id) (privilegeId : Id) :
    absorbed modDav uri serialno
        (described modDav uri serialno row privileges)
        { row with privilegeId := privilegeId } =
      described modDav uri serialno row
        (privileges ++ [privilegeId]) := by
  rcases row with ⟨principal, ns, propertyName, ace, _, parRes⟩
  rw [absorbed, absorb, described, described]
  congr 1
  · match propertyName with
    | none => rfl
    | some [] => rfl
    | some (_ :: _) => rfl
  · by_cases own : parRes.resourceId ≠ serialno
    · simp only [if_pos own, Option.or_self]
    · simp only [if_neg own, Option.or_self]

theorem foldl_absorb_described
    {row : GetAclRow} {rows : List GetAclRow}
    (alike : ∀ other ∈ rows,
      other = { row with privilegeId := other.privilegeId })
    (privileges : List Id) :
    rows.foldl (absorbed modDav uri serialno)
        (described modDav uri serialno row privileges) =
      described modDav uri serialno row
        (privileges ++ rows.map GetAclRow.privilegeId) := by
  induction rows generalizing privileges with
  | nil => rw [List.foldl_nil, List.map_nil, List.append_nil]
  | cons next rows induction =>
      have more := alike next List.mem_cons_self
      have step : absorbed modDav uri serialno
          (described modDav uri serialno row privileges)
          { row with privilegeId := next.privilegeId } =
          described modDav uri serialno row
            (privileges ++ [next.privilegeId]) :=
        absorb_described row privileges next.privilegeId
      rw [← more] at step
      rw [List.foldl_cons, step, induction, List.map_cons, List.append_assoc]
      · rfl
      · intro other member
        exact alike other (List.mem_cons_of_mem _ member)

/-- A run of rows of one ACE becomes the ACE with all their privileges. -/
theorem collected_eq
    {row : GetAclRow} {run : List GetAclRow}
    (alike : ∀ other ∈ run,
      other = { row with privilegeId := other.privilegeId })
    (inhabited : run ≠ []) :
    collected modDav uri serialno run =
      described modDav uri serialno row
        (run.map GetAclRow.privilegeId) := by
  cases run with
  | nil => exact (inhabited rfl).elim
  | cons first rest =>
      have begins := alike first List.mem_cons_self
      have start : collected modDav uri serialno [first] =
          described modDav uri serialno row [first.privilegeId] := by
        rw [absorb_start, begins]
        rfl
      show rest.foldl _ (collected modDav uri serialno [first]) = _
      rw [start, foldl_absorb_described]
      · rfl
      · intro other member
        exact alike other (List.mem_cons_of_mem _ member)

/-- While an ACE is pending the loop collects the runs. -/
theorem foldl_step_pending
    {loop : GetAclLoop} (run : List GetAclRow) {rows : List GetAclRow}
    (pending : loop.acePending = true)
    (begins : run.head?.map aceId = some loop.prevAceId)
    (ace : loop.ace = collected modDav uri serialno run) :
    (rows.foldl (stepped modDav uri serialno) loop).flush =
      loop.acl ++ (ControlBreak.runsFrom aceId run rows).map
        (collected modDav uri serialno) := by
  induction rows generalizing loop run with
  | nil =>
      rw [List.foldl_nil, GetAclLoop.flush, if_pos pending, ace]
      rfl
  | cons row rows induction =>
      rw [List.foldl_cons, ControlBreak.runsFrom, begins]
      by_cases same : loop.prevAceId = aceId row
      · have grows : (run ++ [row]).head?.map aceId =
            some loop.prevAceId := by
          cases run with
          | nil => cases begins
          | cons first rest => exact begins
        have more : absorbed modDav uri serialno loop.ace row =
            collected modDav uri serialno (run ++ [row]) := by
          rw [ace, collected, collected, List.foldl_append]
          rfl
        have stays : loop.begin row = loop := by
          exact if_neg (not_not.mpr same)
        rw [if_pos (congrArg some same)]
        refine (induction (run ++ [row]) rfl ?_ ?_).trans ?_
        · rw [stepped, stays]
          exact grows
        · rw [stepped, stays]
          exact more
        · rw [stepped, stays]
      · have turns : loop.begin row =
            { loop with
              acl := loop.acl ++ [loop.ace]
              prevAceId := row.ace.id
              ace :=
                { loop.ace with
                  privileges := [], inherited := none, property := none } } := by
          refine (if_pos same).trans ?_
          rw [GetAclLoop.flush, if_pos pending]
        rw [if_neg (fun equal => same (Option.some.inj equal))]
        refine (induction [row] rfl ?_ ?_).trans ?_
        · rw [stepped, turns]
          rfl
        · rw [stepped, turns]
          exact absorb_begin loop.ace row
        · rw [stepped, turns, ace, List.map_cons, List.append_assoc]
          rfl

/-- The loop makes an ACE of every run of rows. -/
theorem foldl_step_start
    {rows : List GetAclRow} (positive : ∀ row ∈ rows, 0 < row.ace.id) :
    (rows.foldl (stepped modDav uri serialno)
        GetAclLoop.start).flush =
      (ControlBreak.runs aceId rows).map
        (collected modDav uri serialno) := by
  cases rows with
  | nil => rfl
  | cons row rows =>
      have fresh : GetAclLoop.start.prevAceId ≠ row.ace.id := by
        have id := positive row List.mem_cons_self
        exact Int.ne_of_lt ((Int.negSucc_lt_zero 0).trans id)
      have turns : GetAclLoop.start.begin row =
          { GetAclLoop.start with prevAceId := row.ace.id } := by
        rw [GetAclLoop.begin, if_pos fresh]
        rfl
      rw [List.foldl_cons]
      refine (foldl_step_pending [row] rfl ?_ ?_).trans ?_
      · rw [stepped, turns]
        rfl
      · rw [stepped, turns]
        rfl
      · rw [stepped, turns]
        exact List.nil_append _

end Loop

/-! ## The list -/

section Listing

variable {modDav : ModDav} {uri : Id → Text} {serialno : Id}
  {order : Sql.RowOrder GetAclRow} {store : AceStore} {row other : GetAclRow}

/-- The rows of the query. -/
def sortedRows (order : Sql.RowOrder GetAclRow) (store : AceStore)
    (serialno : Id) : List GetAclRow :=
  Sql.orderBy GetAclRow.sortKey (order.arrange 0 (getAclRows store serialno))

/-- Of every ACE the first row. -/
def heads (order : Sql.RowOrder GetAclRow) (store : AceStore)
    (serialno : Id) : List GetAclRow :=
  Sql.distinctOn aceId (sortedRows order store serialno)

/-- The privileges of the ACE of a row, as the query returns them. -/
def privilegesOf (order : Sql.RowOrder GetAclRow) (store : AceStore)
    (serialno : Id) (head : GetAclRow) : List Id :=
  ((sortedRows order store serialno).filter fun row =>
    aceId row = aceId head).map GetAclRow.privilegeId

theorem mem_sortedRows :
    row ∈ sortedRows order store serialno ↔ IsRow store serialno row := by
  rw [sortedRows, Sql.mem_orderBy, Sql.RowOrder.mem_arrange, mem_getAclRows]

theorem sortedTogether_sortedRows :
    ControlBreak.SortedTogether aceId GetAclRow.sortKey
      (sortedRows order store serialno) where
  sorted := Sql.orderBy_pairwise GetAclRow.sortKey _
  together := fun _ member _ otherMember =>
    (mem_sortedRows.mp member).aceId_eq_iff (mem_sortedRows.mp otherMember)

theorem isRow_of_mem_heads (member : row ∈ heads order store serialno) :
    IsRow store serialno row :=
  mem_sortedRows.mp (Sql.mem_of_mem_distinctOn member)

/-- The ACEs are listed in the order of the query, each of them once. -/
theorem heads_pairwise :
    (heads order store serialno).Pairwise fun first second =>
      first.sortKey < second.sortKey := by
  have sorted : (heads order store serialno).Pairwise fun first second =>
      first.sortKey ≤ second.sortKey ∧ aceId second ≠ aceId first :=
    Sql.distinctOn_pairwise sortedTogether_sortedRows.sorted
  apply sorted.imp_of_mem
  intro first second firstMember secondMember related
  apply lt_of_le_of_ne related.1
  intro same
  have firstRow := isRow_of_mem_heads firstMember
  have secondRow := isRow_of_mem_heads secondMember
  exact related.2 ((firstRow.aceId_eq_iff secondRow).mpr same).symm

/-- The ACE of every row is listed. -/
theorem IsRow.exists_head (found : IsRow store serialno row) :
    ∃ head ∈ heads order store serialno, head.ace = row.ace ∧
      head.parRes = row.parRes := by
  have listed : row ∈ sortedRows order store serialno :=
    mem_sortedRows.mpr found
  have grouped : ∃ head ∈ heads order store serialno,
      aceId head = aceId row :=
    Sql.exists_mem_distinctOn listed
  rcases grouped with ⟨head, kept, same⟩
  have headRow := isRow_of_mem_heads kept
  have ace : head.ace = row.ace :=
    List.inj_on_of_nodup_map store.acesPkey headRow.listed found.listed same
  exact ⟨head, kept, ace, headRow.parRes_eq found ace⟩

/-- An ACE is listed with the privileges that it has. -/
theorem mem_privilegesOf
    {privilegeId : Id} (member : row ∈ heads order store serialno) :
    privilegeId ∈ privilegesOf order store serialno row ↔
      (row.ace.id, privilegeId) ∈ store.davAcesPrivileges := by
  have found := isRow_of_mem_heads member
  simp only [privilegesOf, List.mem_map, List.mem_filter, decide_eq_true_eq]
  constructor
  · rintro ⟨other, ⟨listed, same⟩, rfl⟩
    have carries := (mem_sortedRows.mp listed).carries
    rw [aceId, aceId] at same
    rwa [same] at carries
  · intro carries
    exact ⟨{ row with privilegeId := privilegeId },
      ⟨mem_sortedRows.mpr ⟨found.listed, carries, found.named,
        found.inherited, found.attached, found.ns, found.propertyName⟩, rfl⟩,
      rfl⟩

/-- A resource inherits once from a resource. -/
theorem nodup_inheritedRes {tables : AclTables} :
    (inheritedRes tables serialno).Nodup := by
  have rows := tables.aclInheritancePkey.of_map
  apply List.Nodup.map_on _ ((Sql.nodup_crossJoin rows rows).filter _)
  intro first firstMember second secondMember same
  rw [List.mem_filter, Bool.and_eq_true, beq_iff_eq, Sql.mem_crossJoin]
    at firstMember secondMember
  apply Prod.ext same
  exact List.inj_on_of_nodup_map tables.aclInheritancePkey
    firstMember.1.2 secondMember.1.2
    (firstMember.2.2.trans secondMember.2.2.symm)

/-- Rows that tell what they come from come from it once. -/
theorem nodup_flatMap_of_key
    {Row Other : Type*} {rows : List Row} {join : Row → List Other}
    (key : Other → Row) (nodup : rows.Nodup)
    (each : ∀ row ∈ rows, (join row).Nodup)
    (keyed : ∀ row ∈ rows, ∀ other ∈ join row, key other = row) :
    (rows.flatMap join).Nodup := by
  rw [List.nodup_flatMap]
  refine ⟨each, nodup.imp_of_mem ?_⟩
  intro first second firstMember secondMember distinct other inFirst inSecond
  apply distinct
  rw [← keyed first firstMember other inFirst,
    keyed second secondMember other inSecond]

/-- No row comes twice. -/
theorem nodup_getAclRows : (getAclRows store serialno).Nodup := by
  apply nodup_flatMap_of_key GetAclRow.ace store.acesPkey.of_map
  · intro ace _
    apply nodup_flatMap_of_key fun row => (ace.id, row.privilegeId)
    · exact store.davAcesPrivilegesPkey.filter _
    · intro pair _
      apply nodup_flatMap_of_key fun row => (ace.principalId, row.principal)
      · exact store.principalsPkey.of_map.filter _
      · intro prin _
        apply List.Nodup.map_on _ (nodup_inheritedRes.filter _)
        intro first _ second _ same
        exact congrArg GetAclRow.parRes same
      · intro prin member row made
        rw [List.mem_filter, beq_iff_eq] at member
        rcases List.mem_map.mp made with ⟨res, -, rfl⟩
        rw [← member.2]
    · intro pair member row made
      rw [List.mem_filter, beq_iff_eq] at member
      rcases List.mem_flatMap.mp made with ⟨prin, -, inner⟩
      rcases List.mem_map.mp inner with ⟨res, -, rfl⟩
      rw [← member.2]
  · intro ace _ row made
    rcases List.mem_flatMap.mp made with ⟨pair, -, named⟩
    rcases List.mem_flatMap.mp named with ⟨prin, -, inner⟩
    rcases List.mem_map.mp inner with ⟨res, -, rfl⟩
    rfl

theorem nodup_privilegesOf (member : row ∈ heads order store serialno) :
    (privilegesOf order store serialno row).Nodup := by
  have rows : (sortedRows order store serialno).Nodup := by
    have arranged := (order.perm 0 (getAclRows store serialno)).symm
    have sorted := (List.perm_insertionSort
      (fun first second : GetAclRow => first.sortKey ≤ second.sortKey)
      (order.arrange 0 (getAclRows store serialno))).symm
    exact (arranged.trans sorted).nodup nodup_getAclRows
  apply List.Nodup.map_on _ (rows.filter _)
  intro first firstMember second secondMember same
  have found := isRow_of_mem_heads member
  rw [List.mem_filter, decide_eq_true_eq, mem_sortedRows] at firstMember
  rw [List.mem_filter, decide_eq_true_eq, mem_sortedRows] at secondMember
  rw [found.eq_of_aceId firstMember.1 firstMember.2,
    found.eq_of_aceId secondMember.1 secondMember.2, same]

/-- Every ACE once with its privileges. -/
def listing (modDav : ModDav) (uri : Id → Text) (serialno : Id)
    (order : Sql.RowOrder GetAclRow) (store : AceStore) : List ListedAce :=
  (heads order store serialno).map fun head =>
    described modDav uri serialno head (privilegesOf order store serialno head)

/-- The parents whose ACEs are inherited have a path from the root. -/
def ParentsReached (binds : List Bind) (store : AceStore) (serialno : Id) :
    Prop :=
  ∀ row ∈ getAclRows store serialno, row.parRes.resourceId ≠ serialno →
    (bindGraph binds).Reaches rootCollectionId row.parRes.resourceId

/-- A resource with a path from the root has a URI. -/
theorem exists_sabridgeReverseLookup
    {fuel : Nat} {binds : List Bind} {resId : Id}
    (pathOrder : Sql.RowOrder Bind) (rootPath : Text)
    (enough : binds.length < fuel)
    (reaches : (bindGraph binds).Reaches rootCollectionId resId) :
    ∃ uri, (sabridgeReverseLookup fuel pathOrder binds rootPath resId).join =
      some uri := by
  rcases exists_returns_shortest pathOrder binds rootCollectionId resId with
    ⟨result, returns, missing, -⟩
  have path : dbmsFindShortestPath fuel pathOrder binds rootCollectionId
      resId = some result := returns fuel enough
  cases result with
  | none => exact (missing.mp rfl reaches).elim
  | some found =>
      rw [sabridgeReverseLookup, path]
      exact ⟨_, rfl⟩

/-- `dbms_get_acl` lists every ACE once with its privileges. -/
theorem exists_dbmsGetAcl_eq
    {fuel : Nat} {binds : List Bind}
    (modDav : ModDav) (pathOrder : Sql.RowOrder Bind) (rootPath : Text)
    (enough : binds.length < fuel)
    (reached : ParentsReached binds store serialno) :
    ∃ uri, dbmsGetAcl modDav serialno fuel pathOrder binds rootPath order
        store =
      some (listing modDav uri serialno order store) := by
  let reverseLookup : Id → Option Text := fun parentId =>
    (sabridgeReverseLookup fuel pathOrder binds rootPath parentId).join
  let uri : Id → Text := fun parentId => (reverseLookup parentId).getD []
  have looked : ∀ row ∈ sortedRows order store serialno,
      row.parRes.resourceId ≠ serialno →
        reverseLookup row.parRes.resourceId =
          some (uri row.parRes.resourceId) := by
    intro row member other
    have reaches := reached row
      (mem_getAclRows.mpr (mem_sortedRows.mp member)) other
    rcases exists_sabridgeReverseLookup pathOrder rootPath enough reaches with
      ⟨path, found⟩
    have set : reverseLookup row.parRes.resourceId = some path := found
    show reverseLookup _ = some ((reverseLookup _).getD [])
    rw [set]
    rfl
  have run : (sortedRows order store serialno).foldlM
        (GetAclLoop.step modDav reverseLookup serialno) GetAclLoop.start =
      some ((sortedRows order store serialno).foldl
        (stepped modDav uri serialno) GetAclLoop.start) :=
    foldlM_step looked GetAclLoop.start
  refine ⟨uri, (congrArg (Option.map GetAclLoop.flush) run).trans
    (congrArg some ?_)⟩
  have positive : ∀ row ∈ sortedRows order store serialno,
      0 < row.ace.id := by
    intro row member
    exact (store.aceIds row.ace (mem_sortedRows.mp member).listed).1
  rw [foldl_step_start positive, listing,
    ControlBreak.runs_eq sortedTogether_sortedRows, List.map_map]
  apply List.map_congr_left
  intro head member
  have found := isRow_of_mem_heads member
  apply collected_eq
  · intro other inRun
    rw [List.mem_filter, decide_eq_true_eq, mem_sortedRows] at inRun
    exact found.eq_of_aceId inRun.1 inRun.2
  · apply List.ne_nil_of_mem
    exact List.mem_filter.mpr
      ⟨mem_sortedRows.mpr found, decide_eq_true rfl⟩

end Listing

/-! ## The first match -/

section Decision

variable {modDav : ModDav} {uri : Id → Text} {serialno pId : Id}
  {order : Sql.RowOrder GetAclRow} {store : AceStore} {row : GetAclRow}

/-- What mod_dav makes of the name of a principal has the principal's id. -/
def NamesPrincipals (modDav : ModDav) (tables : AclTables) : Prop :=
  ∀ row ∈ tables.principals,
    davReposGetPrincipalId (davReposGetPrinByName modDav row.2) = row.1

/-- An ACE of a list is about a principal and one of some privileges. -/
def isAbout (tables : AclTables) (pId : Id) (privs : List Id)
    (ace : ListedAce) : Bool :=
  decide (davReposGetPrincipalId ace.principal ∈ membership tables pId) &&
    ace.privileges.any fun privilege => decide (privilege ∈ privs)

/-- The first ACE of a list that is about a principal grants. -/
def firstGrants (tables : AclTables) (pId : Id) (privs : List Id)
    (acl : List ListedAce) : Bool :=
  match acl.find? (isAbout tables pId privs) with
  | none => false
  | some ace => !ace.isDeny

/-- A listed ACE is about a principal iff the check looks at it. -/
theorem isAbout_described
    {isChi : AclPrivilege → Bool}
    (names : NamesPrincipals modDav store.toAclTables)
    (member : row ∈ heads order store serialno) :
    isAbout store.toAclTables pId (parPrivIds store.toAclTables isChi)
        (described modDav uri serialno row
          (privilegesOf order store serialno row)) = true ↔
      Matches store.toAclTables pId (fun chi => isChi chi = true) serialno
        ⟨0, row.ace, row.parRes⟩ := by
  have found := isRow_of_mem_heads member
  have principal : davReposGetPrincipalId
      (davReposGetPrinByName modDav row.principal) = row.ace.principalId :=
    names _ found.named
  rw [isAbout, Bool.and_eq_true, decide_eq_true_eq, List.any_eq_true]
  constructor
  · rintro ⟨named, privilegeId, held, container⟩
    rcases mem_parPrivIds.mp (of_decide_eq_true container) with
      ⟨par, parListed, chi, chiListed, rfl, left, right, met⟩
    exact ⟨found.listed,
      ⟨par, parListed, chi, chiListed, (mem_privilegesOf member).mp held, left,
        right, met⟩,
      principal ▸ named, found.inherited, found.attached⟩
  · intro matched
    rcases matched.carries with
      ⟨par, parListed, chi, chiListed, held, left, right, met⟩
    refine ⟨?_, par.id, (mem_privilegesOf member).mpr held, ?_⟩
    · show davReposGetPrincipalId
        (davReposGetPrinByName modDav row.principal) ∈ _
      rw [principal]
      exact matched.named
    · exact decide_eq_true (mem_parPrivIds.mpr
        ⟨par, parListed, chi, chiListed, rfl, left, right, met⟩)

/-- An ACE that the check looks at is listed. -/
theorem exists_head_of_matches
    {isChi : AclPrivilege → Prop} {matched : AceRow}
    (members : ∀ id ∈ membership store.toAclTables pId,
      id ∈ store.principals.map Prod.fst)
    (found : Matches store.toAclTables pId isChi serialno matched) :
    ∃ head ∈ heads order store serialno, head.ace = matched.ace ∧
      head.parRes = matched.parRes := by
  rcases found.carries with ⟨par, -, -, -, held, -, -, -⟩
  rcases List.mem_map.mp (members _ found.named) with
    ⟨⟨principalId, name⟩, named, same⟩
  rcases same with rfl
  let row : GetAclRow :=
    { principal := name
      ns := (store.namespaces.find? fun other =>
        other.1 == (store.property matched.ace.id).1).map Prod.snd
      propertyName := (store.property matched.ace.id).2
      ace := matched.ace
      privilegeId := par.id
      parRes := matched.parRes }
  have isRow : IsRow store serialno row :=
    ⟨found.listed, held, named, found.inherited, found.attached, rfl, rfl⟩
  exact isRow.exists_head

/-- The first match of the list grants iff the first match of the joins does. -/
theorem firstGrants_listing
    {isChi : AclPrivilege → Bool}
    (names : NamesPrincipals modDav store.toAclTables)
    (members : ∀ id ∈ membership store.toAclTables pId,
      id ∈ store.principals.map Prod.fst) :
    firstGrants store.toAclTables pId (parPrivIds store.toAclTables isChi)
        (listing modDav uri serialno order store) = true ↔
      GrantsBy protectedFirst (Matches store.toAclTables pId
        (fun chi => isChi chi = true) serialno) := by
  have sorted : (heads order store serialno).Pairwise fun first second =>
      first.sortKey ≤ second.sortKey :=
    heads_pairwise.imp le_of_lt
  -- the list and the joins have the same rows with the same keys
  have listed : ∀ matched : AceRow,
      Matches store.toAclTables pId (fun chi => isChi chi = true) serialno
          matched →
        ∃ head ∈ heads order store serialno, head.ace = matched.ace ∧
          head.sortKey = protectedFirst matched ∧
          isAbout store.toAclTables pId (parPrivIds store.toAclTables isChi)
            (described modDav uri serialno head
              (privilegesOf order store serialno head)) = true := by
    intro matched found
    have listed : ∃ head ∈ heads order store serialno,
        head.ace = matched.ace ∧ head.parRes = matched.parRes :=
      exists_head_of_matches members found
    rcases listed with ⟨head, member, ace, parRes⟩
    refine ⟨head, member, ace, ?_, ?_⟩
    · rw [GetAclRow.sortKey, ace, parRes]
      rfl
    · rw [isAbout_described names member, ace, parRes]
      exact found.withPId 0
  rw [firstGrants, listing, List.find?_map]
  cases first : (heads order store serialno).find?
      (isAbout store.toAclTables pId (parPrivIds store.toAclTables isChi) ∘
        fun head => described modDav uri serialno head
          (privilegesOf order store serialno head)) with
  | none =>
      constructor
      · intro grants
        cases grants
      · rintro ⟨matched, isFirst, -⟩
        rcases listed matched isFirst.qualifies with
          ⟨head, member, -, -, about⟩
        exact (List.find?_eq_none.mp first head member about).elim
  | some head =>
      have isFirst := Sql.isFirst_of_find sorted first
      have headMatches := (isAbout_described names isFirst.qualifies.1).mp
        isFirst.qualifies.2
      have least : ∀ matched : AceRow,
          Matches store.toAclTables pId (fun chi => isChi chi = true)
              serialno matched →
            head.sortKey ≤ protectedFirst matched := by
        intro matched found
        rcases listed matched found with ⟨other, member, -, key, about⟩
        rw [← key]
        exact isFirst.least other ⟨member, about⟩
      have firstMatch : Sql.IsFirst protectedFirst
          (Matches store.toAclTables pId (fun chi => isChi chi = true)
            serialno) ⟨0, head.ace, head.parRes⟩ :=
        ⟨headMatches, least⟩
      show (!(head.ace.grantdeny != aclGrant)) = true ↔ _
      rw [bne, Bool.not_not, beq_iff_eq]
      constructor
      · intro grant
        exact ⟨_, firstMatch, grant⟩
      · rintro ⟨matched, other, grant⟩
        have same := ace_eq_of_isFirst aceKey_protectedFirst firstMatch other
        rw [← grant]
        exact congrArg Ace.grantdeny same

end Decision

end Limestone.AclListing
