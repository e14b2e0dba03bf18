import Limestone.AclLiveprops
import Limestone.Library.Loop

/-!
# What the validation of a set of members computes

The names that are read are those of the listed principals.  The query has a
row for every principal with one of these names and for every other member of
the group; the last row of a name decides what the hash has for it.
-/

namespace Limestone.GroupChanges

open Library
open AclLiveprops
open BridgeProperty (DavReposResource PrincipalRow)
open DbmsDbd
open DbmsPrincipal

/-! ## The URLs of principals -/

/-- The URL of a principal. -/
def principalUrl (server : Server) (type : ResourceType) (name : Text) : Text :=
  principalHrefPrefix server ++
    ((if type = .group then principalGroupPrefix else principalUserPrefix) ++
      name)

/-- An `href` names a principal: its text is the URL of the principal. -/
def Names (server : Server) (tables : MemberTables) (prin : PrincipalRow)
    (href : Text) : Prop :=
  ∃ row ∈ tables.resources, row.id = prin.resourceId ∧
    server.davXmlGetCdata href = principalUrl server row.type prin.name

/-- A principal that is named in the list. -/
def Listed (server : Server) (tables : MemberTables) (hrefs : List Text)
    (prin : PrincipalRow) : Prop :=
  prin ∈ tables.principals ∧ ∃ href ∈ hrefs, Names server tables prin href

/-- The path of a group holds no prefix of a user. -/
theorem not_user_infix_group {name : Text} (segment : '/' ∉ name) :
    ¬ principalUserPrefix <:+: principalGroupPrefix ++ name := by
  have user : principalUserPrefix = '/' :: 'u' :: "sers/".toList := rfl
  have group : principalGroupPrefix = '/' :: 'g' :: "roups/".toList := rfl
  rw [user, group]
  rintro ⟨before, after, equation⟩
  cases before with
  | nil =>
      have second := (List.cons.inj (List.cons.inj equation).2).1
      exact absurd second (by decide)
  | cons char before =>
      have slash : char = '/' := (List.cons.inj equation).1
      have counted := congrArg (List.count '/') equation
      have inUser : ('/' :: 'u' :: "sers/".toList).count '/' = 2 := rfl
      have inGroup : ('/' :: 'g' :: "roups/".toList).count '/' = 2 := rfl
      rw [slash, List.count_append, List.count_append, List.count_append,
        List.count_cons_self, List.count_eq_zero.mpr segment, inUser,
        inGroup] at counted
      omega

/-- The name of a principal is read from its URL. -/
theorem getNameFromPrincipalUrl_principalUrl
    (server : Server) (type : ResourceType) {name : Text}
    (segment : '/' ∉ name) :
    getNameFromPrincipalUrl server (principalUrl server type name) =
      some name := by
  have isPrefix : principalHrefPrefix server <+:
      principalUrl server type name :=
    List.prefix_append _ _
  rw [getNameFromPrincipalUrl, if_pos isPrefix, principalUrl,
    List.drop_left]
  by_cases group : type = .group
  · have infixed : principalGroupPrefix <:+: principalGroupPrefix ++ name :=
      (List.prefix_append _ _).isInfix
    rw [if_pos group, if_neg (not_user_infix_group segment), if_pos infixed,
      List.drop_left]
  · have infixed : principalUserPrefix <:+: principalUserPrefix ++ name :=
      (List.prefix_append _ _).isInfix
    rw [if_neg group, if_pos infixed, List.drop_left]

/-! ## The hash of the names -/

/-- The names that are read from a list of `href` elements. -/
def readNames (server : Server) (hrefs : List Text) : List Text :=
  hrefs.filterMap fun href =>
    getNameFromPrincipalUrl server (server.davXmlGetCdata href)

/-- The hash of the names before the query. -/
def namesHash (server : Server) (hrefs : List Text) : MemberHash :=
  ((readNames server hrefs).map fun name =>
    (name, some MemberValue.empty)).foldl LastSeen.write ∅

variable {server : Server} {tables : MemberTables} {hrefs : List Text}
  {prin : PrincipalRow} {name : Text}

/-- Every element of the list names a principal. -/
def AllNamed (server : Server) (tables : MemberTables) (hrefs : List Text) :
    Prop :=
  ∀ href ∈ hrefs, ∃ prin ∈ tables.principals, Names server tables prin href

theorem Names.readName
    {href : Text} (member : prin ∈ tables.principals)
    (names : Names server tables prin href) :
    getNameFromPrincipalUrl server (server.davXmlGetCdata href) =
      some prin.name := by
  rcases names with ⟨row, -, -, text⟩
  rw [text]
  exact getNameFromPrincipalUrl_principalUrl server row.type
    (tables.segment prin member)

/-- The names that are read are the names of the listed principals. -/
theorem mem_readNames (allNamed : AllNamed server tables hrefs) :
    name ∈ readNames server hrefs ↔
      ∃ prin, Listed server tables hrefs prin ∧ prin.name = name := by
  rw [readNames, List.mem_filterMap]
  constructor
  · rintro ⟨href, listed, read⟩
    rcases allNamed href listed with ⟨prin, member, names⟩
    rw [names.readName member] at read
    exact ⟨prin, ⟨member, href, listed, names⟩, Option.some.inj read⟩
  · rintro ⟨prin, ⟨member, href, listed, names⟩, rfl⟩
    exact ⟨href, listed, names.readName member⟩

theorem foldlM_readHref (allNamed : AllNamed server tables hrefs) :
    hrefs.foldlM (readHref server) ∅ = .ok (namesHash server hrefs) := by
  have general : ∀ start, hrefs.foldlM (readHref server) start =
      .ok (((readNames server hrefs).map fun name =>
        (name, some MemberValue.empty)).foldl LastSeen.write start) := by
    induction hrefs with
    | nil => exact fun start => rfl
    | cons href hrefs induction =>
        intro start
        rw [AllNamed, List.forall_mem_cons] at allNamed
        rcases allNamed with ⟨⟨prin, member, names⟩, later⟩
        have read := names.readName member
        have step : readHref server start href =
            .ok (aprHashSet start prin.name (some .empty)) := by
          rw [readHref, read]
        rw [List.foldlM_cons, step, readNames, List.filterMap_cons, read]
        exact induction later _
  exact general ∅

/-- The hash has an empty string for every name that was read. -/
theorem lookup_namesHash_of_mem (read : name ∈ readNames server hrefs) :
    (namesHash server hrefs).lookup name = some .empty := by
  rw [namesHash, LastSeen.lookup_foldl_write_map, if_pos read]

theorem lookup_namesHash_of_notMem (unread : name ∉ readNames server hrefs) :
    (namesHash server hrefs).lookup name = none := by
  rw [namesHash, LastSeen.lookup_foldl_write_map, if_neg unread]
  exact AList.lookup_empty name

/-! ## The rows of the query -/

variable {groupId : Id} {names : List Text} {row : ChangeRow}

/-- A principal is a direct member of the group. -/
def IsMember (tables : MemberTables) (groupId : Id) (prin : PrincipalRow) :
    Prop :=
  ⟨groupId, prin.resourceId⟩ ∈ tables.groupMembers

/-- The row of a principal whose name is queried. -/
structure IsNamedRow (tables : MemberTables) (groupId : Id)
    (prin : PrincipalRow) (row : ChangeRow) : Prop where
  name : row.name = some prin.name
  id : row.id = some prin.resourceId
  already : row.isAlreadyAMember = some true ↔ IsMember tables groupId prin

/-- The row of a current member whose name is not queried. -/
structure IsOtherRow (cur : GroupMember) (row : ChangeRow) : Prop where
  name : row.name = none
  id : row.id = some cur.memberId
  already : row.isAlreadyAMember = none

/-- No principal with a queried name is the member. -/
def Unnamed (tables : MemberTables) (names : List Text) (memberId : Id) :
    Prop :=
  ∀ prin ∈ tables.principals, prin.resourceId = memberId → prin.name ∉ names

theorem some_mem_joinedMembers
    {found : Option PrincipalRow} {cur : Option GroupMember} :
    (some (found, name), cur) ∈ joinedMembers tables groupId names ↔
      ((found, name), cur) ∈ Sql.leftJoin
        (Sql.rightJoin tables.principals names
          fun prin name => prin.name == name)
        (tables.groupMembers.filter fun row => row.groupId == groupId)
        fun new cur => new.1.any fun prin =>
          prin.resourceId == cur.memberId :=
  Sql.some_mem_fullJoin

/-- The principals with a queried name, each with its membership. -/
theorem mem_joinedMembers_named
    {cur : Option GroupMember}
    (joined : (some (some prin, name), cur) ∈
      joinedMembers tables groupId names) :
    prin ∈ tables.principals ∧ name = prin.name ∧ prin.name ∈ names ∧
      (∀ row ∈ cur, row.memberId = prin.resourceId) ∧
      (cur.isSome ↔ IsMember tables groupId prin) := by
  rw [some_mem_joinedMembers] at joined
  cases cur with
  | none =>
      rcases Sql.none_mem_leftJoin.mp joined with ⟨new, unmatched⟩
      rcases Sql.some_mem_rightJoin.mp new with ⟨member, listed, same⟩
      rw [beq_iff_eq] at same
      refine ⟨member, same.symm, same ▸ listed, nofun, nofun, ?_⟩
      intro isMember
      have current := unmatched ⟨groupId, prin.resourceId⟩
        (List.mem_filter.mpr ⟨isMember, beq_self_eq_true groupId⟩)
      simp at current
  | some row =>
      rcases Sql.some_mem_leftJoin.mp joined with ⟨new, current, same⟩
      rcases Sql.some_mem_rightJoin.mp new with ⟨member, listed, named⟩
      rcases List.mem_filter.mp current with ⟨stored, ofGroup⟩
      have memberId : prin.resourceId = row.memberId := by simpa using same
      have group : row.groupId = groupId := by simpa using ofGroup
      rw [beq_iff_eq] at named
      refine ⟨member, named.symm, named ▸ listed, ?_, fun _ => ?_,
        fun _ => rfl⟩
      · rintro other ⟨⟩
        exact memberId.symm
      · rw [IsMember, memberId, ← group]
        exact stored

/-- Every principal with a queried name is joined. -/
theorem exists_mem_joinedMembers
    (member : prin ∈ tables.principals) (named : prin.name ∈ names) :
    ∃ cur, (some (some prin, prin.name), cur) ∈
      joinedMembers tables groupId names := by
  simp only [some_mem_joinedMembers]
  rw [Sql.exists_mem_leftJoin, Sql.some_mem_rightJoin]
  exact ⟨member, named, beq_self_eq_true prin.name⟩

/-- The current members that no queried name is joined with. -/
theorem none_mem_joinedMembers {cur : Option GroupMember} :
    (none, cur) ∈ joinedMembers tables groupId names ↔
      ∃ row ∈ tables.groupMembers, cur = some row ∧ row.groupId = groupId ∧
        Unnamed tables names row.memberId := by
  rw [joinedMembers, Sql.none_mem_fullJoin]
  constructor
  · rintro ⟨row, current, rfl, unmatched⟩
    rcases List.mem_filter.mp current with ⟨stored, ofGroup⟩
    refine ⟨row, stored, rfl, beq_iff_eq.mp ofGroup, ?_⟩
    intro prin member same named
    have joined := unmatched (some prin, prin.name)
      (Sql.some_mem_rightJoin.mpr
        ⟨member, named, beq_self_eq_true prin.name⟩)
    simp [same] at joined
  · rintro ⟨row, stored, rfl, group, unnamed⟩
    refine ⟨row, List.mem_filter.mpr ⟨stored, beq_iff_eq.mpr group⟩, rfl, ?_⟩
    rintro ⟨found, name⟩ new
    cases found with
    | none => rfl
    | some prin =>
        rcases Sql.some_mem_rightJoin.mp new with ⟨member, named, same⟩
        rw [beq_iff_eq] at same
        have other : prin.resourceId ≠ row.memberId := fun equal =>
          unnamed prin member equal (same ▸ named)
        simpa using other

/-- Reading the quoted names gives the names, each once. -/
theorem union_literals (names : List Text) :
    Sql.union ((names.map dbmsEscape).map readLiteral) [] = names.dedup := by
  rw [Sql.union, List.append_nil, List.map_map]
  have read : readLiteral ∘ dbmsEscape = id := funext readLiteral_dbmsEscape
  rw [read, List.map_id]

/-- The resource of a row is that of its principal. -/
theorem joinedResources_named
    {cur : Option GroupMember} {resource : Option Resource}
    (joined : ((some (some prin, name), cur), resource) ∈
      joinedResources tables groupId names) :
    resource.map Resource.id = some prin.resourceId := by
  cases resource with
  | none =>
      rcases Sql.none_mem_leftJoin.mp joined with ⟨row, unmatched⟩
      rcases mem_joinedMembers_named row with ⟨member, -⟩
      rcases tables.resource prin member with ⟨resource, stored, same⟩
      have matched := unmatched resource stored
      simp [same] at matched
  | some resource =>
      rcases Sql.some_mem_leftJoin.mp joined with ⟨row, -, matched⟩
      rcases mem_joinedMembers_named row with ⟨-, -, -, sameId, -⟩
      have same : prin.resourceId = resource.id := by
        cases cur with
        | none => simpa using matched
        | some current => simpa [sameId current rfl] using matched
      rw [same]
      rfl

/-- The resource of a row without a principal is that of its member. -/
theorem joinedResources_other
    {cur : GroupMember} {resource : Option Resource}
    (joined : ((none, some cur), resource) ∈
      joinedResources tables groupId names)
    (stored : cur ∈ tables.groupMembers) :
    resource.map Resource.id = some cur.memberId := by
  rcases tables.member cur stored with ⟨prin, member, sameId⟩
  rcases tables.resource prin member with ⟨row, rowStored, sameRow⟩
  cases resource with
  | none =>
      rcases Sql.none_mem_leftJoin.mp joined with ⟨-, unmatched⟩
      have matched := unmatched row rowStored
      simp [sameRow, sameId] at matched
  | some resource =>
      rcases Sql.some_mem_leftJoin.mp joined with ⟨-, -, matched⟩
      have same : cur.memberId = resource.id := by simpa using matched
      rw [same]
      rfl

theorem isNamedRow_changeRow
    {cur : Option GroupMember} {resource : Option Resource}
    (joined : ((some (some prin, name), cur), resource) ∈
      joinedResources tables groupId names) :
    IsNamedRow tables groupId prin
      (changeRow (some (some prin, name)) cur resource) := by
  have row : (some (some prin, name), cur) ∈
      joinedMembers tables groupId names :=
    Sql.exists_mem_leftJoin.mp ⟨resource, joined⟩
  rcases mem_joinedMembers_named row with ⟨-, sameName, -, sameId, isMember⟩
  refine ⟨congrArg some sameName, joinedResources_named joined, ?_⟩
  rw [← isMember]
  cases cur with
  | none => simp [changeRow]
  | some current => simp [changeRow, sameId current rfl]

/-- Every name of the list is the name of a principal. -/
def Known (tables : MemberTables) (names : List Text) : Prop :=
  ∀ name ∈ names, ∃ prin ∈ tables.principals, prin.name = name

/-- The query returns rows of named principals and of other members. -/
theorem mem_changeRows
    (known : Known tables names)
    (returned : row ∈ changeRows tables groupId (names.map dbmsEscape)) :
    (∃ prin ∈ tables.principals, prin.name ∈ names ∧
        IsNamedRow tables groupId prin row) ∨
      ∃ cur ∈ tables.groupMembers, cur.groupId = groupId ∧
        Unnamed tables names cur.memberId ∧ IsOtherRow cur row := by
  rw [changeRows, union_literals] at returned
  rcases List.mem_map.mp returned with ⟨⟨⟨new, cur⟩, resource⟩, joined, rfl⟩
  have listed : (new, cur) ∈ joinedMembers tables groupId names.dedup :=
    Sql.exists_mem_leftJoin.mp ⟨resource, joined⟩
  match new with
  | none =>
      rcases none_mem_joinedMembers.mp listed with
        ⟨current, stored, rfl, group, unnamed⟩
      refine Or.inr ⟨current, stored, group, ?_, rfl, ?_, rfl⟩
      · intro prin member same named
        exact unnamed prin member same (List.mem_dedup.mpr named)
      · exact joinedResources_other joined stored
  | some (none, name) =>
      -- a name without a principal
      rw [some_mem_joinedMembers] at listed
      rcases Sql.none_mem_rightJoin.mp
          (Sql.exists_mem_leftJoin.mp ⟨cur, listed⟩) with ⟨queried, unmatched⟩
      rcases known name (List.mem_dedup.mp queried) with ⟨prin, member, rfl⟩
      have matched := unmatched prin member
      simp at matched
  | some (some prin, name) =>
      rcases mem_joinedMembers_named listed with ⟨member, -, named, -⟩
      exact Or.inl ⟨prin, member, List.mem_dedup.mp named,
        isNamedRow_changeRow joined⟩

/-- Every principal with a queried name has a row. -/
theorem exists_namedRow
    (member : prin ∈ tables.principals) (named : prin.name ∈ names) :
    ∃ row ∈ changeRows tables groupId (names.map dbmsEscape),
      IsNamedRow tables groupId prin row := by
  have joined : ∃ cur, (some (some prin, prin.name), cur) ∈
      joinedMembers tables groupId names.dedup :=
    exists_mem_joinedMembers member (List.mem_dedup.mpr named)
  rcases joined with ⟨cur, listed⟩
  rcases Sql.exists_mem_leftJoin.mpr listed with ⟨resource, joined⟩
  rw [changeRows, union_literals]
  exact ⟨_, List.mem_map.mpr ⟨_, joined, rfl⟩, isNamedRow_changeRow joined⟩

/-- Every current member whose name is not queried has a row. -/
theorem exists_otherRow
    {cur : GroupMember} (stored : cur ∈ tables.groupMembers)
    (group : cur.groupId = groupId)
    (unnamed : Unnamed tables names cur.memberId) :
    ∃ row ∈ changeRows tables groupId (names.map dbmsEscape),
      IsOtherRow cur row := by
  have listed : (none, some cur) ∈
      joinedMembers tables groupId names.dedup :=
    none_mem_joinedMembers.mpr ⟨cur, stored, rfl, group,
      fun prin member same named =>
        unnamed prin member same (List.mem_dedup.mp named)⟩
  rcases Sql.exists_mem_leftJoin.mpr listed with ⟨resource, joined⟩
  rw [changeRows, union_literals]
  exact ⟨_, List.mem_map.mpr ⟨_, joined, rfl⟩, rfl,
    joinedResources_other joined stored, rfl⟩

/-! ## Reading the rows -/

/-- What a row does to the hash. -/
def rowEdit (groupDbr : DavReposResource) (row : ChangeRow) :
    Option (Text × Option MemberValue) :=
  if row.isAlreadyAMember = some true then some (row.name.getD [], none)
  else if row.name.getD [] = [] then none
  else some (row.name.getD [],
    some (.principal (changedPrin groupDbr row)))

/-- A row whose principal is to be removed. -/
def IsRemoval (row : ChangeRow) : Prop :=
  row.isAlreadyAMember ≠ some true ∧ row.name.getD [] = []

instance (row : ChangeRow) : Decidable (IsRemoval row) :=
  inferInstanceAs (Decidable (_ ∧ _))

variable {groupDbr : DavReposResource} {rows : List ChangeRow}

/-- Rows with resources are read without an error. -/
theorem foldlM_readChange
    (found : ∀ row ∈ rows, row.id.getD 0 ≠ 0) (newMembers : MemberHash) :
    rows.foldlM (readChange groupDbr) (newMembers, []) =
      .ok ((rows.filterMap (rowEdit groupDbr)).foldl LastSeen.write newMembers,
        (rows.filter fun row => IsRemoval row).map (changedPrin groupDbr)) := by
  induction rows using List.reverseRecOn with
  | nil => rfl
  | append_singleton rows row induction =>
      have before : ∀ row ∈ rows, row.id.getD 0 ≠ 0 := fun other member =>
        found other (List.mem_append_left _ member)
      have last : row.id.getD 0 ≠ 0 := found row (by simp)
      rw [List.foldlM_append, induction before, List.filterMap_append,
        List.foldl_append, List.filter_append, List.map_append]
      show [row].foldlM (readChange groupDbr) _ = _
      rw [List.foldlM_cons, readChange, if_neg last]
      by_cases already : row.isAlreadyAMember = some true
      · have edit : [row].filterMap (rowEdit groupDbr) =
            [(row.name.getD [], none)] := by
          simp [rowEdit, already]
        have kept : [row].filter (fun row => IsRemoval row) = [] := by
          simp [IsRemoval, already]
        rw [if_pos already, edit, kept, List.map_nil, List.append_nil]
        rfl
      · rw [if_neg already]
        by_cases unnamed : row.name.getD [] = []
        · have edit : [row].filterMap (rowEdit groupDbr) = [] := by
            simp [rowEdit, already, unnamed]
          have removed : [row].filter (fun row => IsRemoval row) = [row] := by
            simp [IsRemoval, already, unnamed]
          rw [if_pos unnamed, edit, removed]
          rfl
        · have edit : [row].filterMap (rowEdit groupDbr) =
              [(row.name.getD [],
                some (.principal (changedPrin groupDbr row)))] := by
            simp [rowEdit, already, unnamed]
          have kept : [row].filter (fun row => IsRemoval row) = [] := by
            simp [IsRemoval, unnamed]
          rw [if_neg unnamed, edit, kept, List.map_nil, List.append_nil]
          rfl

/-- The last row that the query has returned for a name. -/
def lastRow (rows : List ChangeRow) (name : Text) : Option ChangeRow :=
  (rows.filter fun row => row.name == some name).getLast?

/-- What the last row of a name leaves in the hash. -/
def rowValue (groupDbr : DavReposResource) (row : ChangeRow) :
    Option MemberValue :=
  if row.isAlreadyAMember = some true then none
  else some (.principal (changedPrin groupDbr row))

theorem rowEdit_of_name (named : row.name = some name) (nonempty : name ≠ []) :
    rowEdit groupDbr row = some (name, rowValue groupDbr row) := by
  have filled : row.name.getD [] = name := by rw [named, Option.getD_some]
  rw [rowEdit, rowValue, filled, if_neg nonempty]
  split
  · rfl
  · rfl

theorem rowEdit_key {edit : Text × Option MemberValue}
    (edited : rowEdit groupDbr row = some edit) :
    edit.1 = row.name.getD [] := by
  rw [rowEdit] at edited
  split at edited
  next => rw [← Option.some.inj edited]
  next =>
      split at edited
      next => cases edited
      next => rw [← Option.some.inj edited]

/-- The edits of a name are those of its rows. -/
theorem filter_edits (nonempty : name ≠ []) :
    (rows.filterMap (rowEdit groupDbr)).filter
        (fun edit => decide (edit.1 = name)) =
      (rows.filter fun row => row.name == some name).map fun row =>
        (name, rowValue groupDbr row) := by
  induction rows with
  | nil => rfl
  | cons row rows induction =>
      by_cases named : row.name = some name
      · rw [List.filterMap_cons_some (rowEdit_of_name named nonempty),
          List.filter_cons_of_pos (by simp), List.filter_cons_of_pos
          (by simp [named]), List.map_cons, induction]
      · rw [List.filter_cons_of_neg (by simp [named]), ← induction]
        cases edited : rowEdit groupDbr row with
        | none => rw [List.filterMap_cons_none edited]
        | some edit =>
            have other : edit.1 ≠ name := by
              rw [rowEdit_key edited]
              cases key : row.name with
              | none => exact Ne.symm nonempty
              | some text =>
                  rw [key] at named
                  exact fun same => named (congrArg some same)
            rw [List.filterMap_cons_some edited,
              List.filter_cons_of_neg (by simp [other])]

/-- The last row of a name decides what the hash has for it. -/
theorem lookup_edits (nonempty : name ≠ []) (newMembers : MemberHash) :
    ((rows.filterMap (rowEdit groupDbr)).foldl LastSeen.write
        newMembers).lookup name =
      ((lastRow rows name).map (rowValue groupDbr)).getD
        (newMembers.lookup name) := by
  rw [LastSeen.lookup_foldl_write, filter_edits nonempty, List.getLast?_map,
    Option.map_map, lastRow]
  rfl

/-- The empty name leaves the hash with a row of a member. -/
theorem lookup_edits_nil_of_already
    (returned : row ∈ rows) (named : row.name = some [])
    (already : row.isAlreadyAMember = some true) (newMembers : MemberHash) :
    ((rows.filterMap (rowEdit groupDbr)).foldl LastSeen.write
      newMembers).lookup [] = none := by
  rw [LastSeen.lookup_foldl_write]
  have listed : ([], none) ∈ (rows.filterMap (rowEdit groupDbr)).filter
      fun edit => decide (edit.1 = []) := by
    refine List.mem_filter.mpr ⟨List.mem_filterMap.mpr ⟨row, returned, ?_⟩, ?_⟩
    · rw [rowEdit, if_pos already, named, Option.getD_some]
    · exact decide_eq_true rfl
  rcases Option.isSome_iff_exists.mp (List.getLast?_isSome.mpr
      (List.ne_nil_of_mem listed)) with ⟨last, found⟩
  rcases List.mem_filter.mp (List.mem_of_getLast? found) with ⟨edited, key⟩
  rcases List.mem_filterMap.mp edited with ⟨other, -, edit⟩
  have empty : other.name.getD [] = [] := by
    rw [← rowEdit_key edit]
    exact of_decide_eq_true key
  rw [rowEdit, empty, if_pos rfl] at edit
  split at edit
  next =>
      rw [found, ← Option.some.inj edit]
      rfl
  next => cases edit

/-- Without such a row the empty name stays as it is. -/
theorem lookup_edits_nil_of_not
    (fresh : ∀ row ∈ rows, row.name.getD [] = [] →
      row.isAlreadyAMember ≠ some true) (newMembers : MemberHash) :
    ((rows.filterMap (rowEdit groupDbr)).foldl LastSeen.write
      newMembers).lookup [] = newMembers.lookup [] := by
  have none : (rows.filterMap (rowEdit groupDbr)).filter
      (fun edit => decide (edit.1 = [])) = [] := by
    rw [List.filter_eq_nil_iff]
    intro edit edited key
    rcases List.mem_filterMap.mp edited with ⟨row, returned, made⟩
    have empty : row.name.getD [] = [] := by
      rw [← rowEdit_key made]
      exact of_decide_eq_true key
    rw [rowEdit, if_neg (fresh row returned empty), if_pos empty] at made
    cases made
  rw [LastSeen.lookup_foldl_write, none]
  rfl

/-! ## The text of the query -/

theorem mem_addName {table : Text} :
    '?' ∈ addName table name ↔ '?' ∈ table ∨ '?' ∈ name := by
  have union : '?' ∉ " UNION ".toList := by decide
  have opening : '?' ∉ " SELECT text('".toList := by decide
  have closing : '?' ∉ "') ".toList := by decide
  have column : '?' ∉ " AS name ".toList := by decide
  rw [addName]
  split
  · simp only [List.mem_append, mem_dbmsEscape, opening, closing, column,
      List.not_mem_nil, or_false]
  · simp only [List.mem_append, mem_dbmsEscape, opening, closing, union,
      List.not_mem_nil, or_false]

theorem mem_foldl_addName (names : List Text) (table : Text) :
    '?' ∈ names.foldl addName table ↔
      '?' ∈ table ∨ ∃ name ∈ names, '?' ∈ name := by
  induction names generalizing table with
  | nil => simp
  | cons name names induction =>
      rw [List.foldl_cons, induction, mem_addName, or_assoc,
        List.exists_mem_cons_iff]

theorem count_changesQuery (table : Text) :
    (changesQuery table).count '?' = table.count '?' + 1 := by
  have opening : changesOpening.count '?' = 0 := by decide +kernel
  have closing : changesClosing.count '?' = 1 := by decide +kernel
  rw [changesQuery, List.count_append, List.count_append, opening, closing,
    Nat.zero_add]

/-- The query is sent iff no name has a question mark. -/
theorem isSome_sentChanges (groupId : Id) (names : List Text) :
    (sentChanges groupId names).isSome = true ↔
      ∀ name ∈ names, '?' ∉ name := by
  rw [sentChanges, escquery_dbmsSetInt _ _ (count_changesQuery _), decide_eq_true_iff,
    List.count_eq_zero, mem_foldl_addName]
  simp

/-! ## The validation -/

variable {database : Database} {iteration : HashOrder}
  {resource : DavReposResource} {operation : PropOp} {context : MemberHash}
  {removed : List DavReposResource}

theorem mem_newNames :
    name ∈ newNames iteration (namesHash server hrefs) ↔
      name ∈ readNames server hrefs := by
  have listed : name ∈ newNames iteration (namesHash server hrefs) ↔
      name ∈ namesHash server hrefs :=
    ((iteration.perm _).map Sigma.fst).mem_iff
  rw [listed, ← AList.lookup_isSome]
  by_cases read : name ∈ readNames server hrefs
  · rw [lookup_namesHash_of_mem read]
    exact iff_of_true rfl read
  · rw [lookup_namesHash_of_notMem read]
    exact iff_of_false Bool.false_ne_true read

theorem known_newNames (allNamed : AllNamed server tables hrefs) :
    Known tables (newNames iteration (namesHash server hrefs)) := by
  intro name listed
  rcases (mem_readNames allNamed).mp (mem_newNames.mp listed) with
    ⟨prin, isListed, same⟩
  exact ⟨prin, isListed.1, same⟩

/-- The rows that are returned for a list of `href` elements. -/
def returnedRows (server : Server) (database : Database)
    (iteration : HashOrder) (tables : MemberTables) (groupId : Id)
    (hrefs : List Text) : List ChangeRow :=
  returnedChanges database iteration tables groupId (namesHash server hrefs)

theorem mem_returnedRows :
    row ∈ returnedRows server database iteration tables groupId hrefs ↔
      row ∈ changeRows tables groupId
        ((newNames iteration (namesHash server hrefs)).map dbmsEscape) :=
  Sql.RowOrder.mem_arrange

/-- What the hash holds after a validation whose query was sent. -/
structure Validated (server : Server) (tables : MemberTables)
    (resource : DavReposResource) (hrefs : List Text)
    (rows : List ChangeRow) (context : MemberHash)
    (removed : List DavReposResource) : Prop where
  toRemove : context.lookup toRemoveKey =
    if removed = [] then none else some (.removals removed)
  removed : ∀ prin ∈ tables.principals,
    IsMember tables resource.serialno prin →
      ((∃ other ∈ removed, other.serialno = prin.resourceId) ↔
        prin.name ∉ readNames server hrefs)
  unread : ∀ name, name ≠ toRemoveKey → name ∉ readNames server hrefs →
    context.lookup name = none
  named : ∀ name ∈ readNames server hrefs, name ≠ toRemoveKey → name ≠ [] →
    ∃ prin ∈ tables.principals, ∃ row, prin.name = name ∧
      lastRow rows name = some row ∧
      IsNamedRow tables resource.serialno prin row ∧
      context.lookup name = rowValue resource row
  blankMember : ∀ prin ∈ tables.principals,
    prin.name = [] → [] ∈ readNames server hrefs →
    IsMember tables resource.serialno prin → context.lookup [] = none
  blank : [] ∈ readNames server hrefs →
    (∀ prin ∈ tables.principals, prin.name = [] →
      ¬ IsMember tables resource.serialno prin) →
    context.lookup [] = some .empty

theorem lookup_aprHashSet_of_ne
    {hash : MemberHash} {key : Text} {value : Option MemberValue}
    (other : name ≠ key) :
    (aprHashSet hash key value).lookup name = hash.lookup name := by
  rw [aprHashSet, LastSeen.lookup_write]
  exact if_neg (Ne.symm other)

theorem lookup_aprHashSet
    {hash : MemberHash} {key : Text} {value : Option MemberValue} :
    (aprHashSet hash key value).lookup key = value := by
  rw [aprHashSet, LastSeen.lookup_write]
  exact if_pos rfl

theorem resourceId_pos (member : prin ∈ tables.principals) :
    0 < prin.resourceId := by
  rcases tables.resource prin member with ⟨row, stored, same⟩
  rw [← same]
  exact tables.positive row stored

theorem prin_eq_of_resourceId_eq
    {other : PrincipalRow} (member : prin ∈ tables.principals)
    (otherMember : other ∈ tables.principals)
    (same : prin.resourceId = other.resourceId) : prin = other :=
  List.inj_on_of_nodup_map tables.resourceIdKey member otherMember same

section Rows

variable (allNamed : AllNamed server tables hrefs)

include allNamed

/-- What the rows for a list of `href` elements are about. -/
theorem mem_returnedRows_cases
    (returned : row ∈
      returnedRows server database iteration tables groupId hrefs) :
    (∃ prin ∈ tables.principals, prin.name ∈ readNames server hrefs ∧
        IsNamedRow tables groupId prin row) ∨
      ∃ cur ∈ tables.groupMembers, cur.groupId = groupId ∧
        Unnamed tables (readNames server hrefs) cur.memberId ∧
        IsOtherRow cur row := by
  rcases mem_changeRows (known_newNames allNamed)
      (mem_returnedRows.mp returned) with
    ⟨prin, member, named, isRow⟩ | ⟨cur, stored, group, unnamed, isRow⟩
  · exact Or.inl ⟨prin, member, mem_newNames.mp named, isRow⟩
  · exact Or.inr ⟨cur, stored, group, fun prin member same named =>
      unnamed prin member same (mem_newNames.mpr named), isRow⟩

theorem id_ne_zero
    (returned : row ∈
      returnedRows server database iteration tables groupId hrefs) :
    row.id.getD 0 ≠ 0 := by
  rcases mem_returnedRows_cases allNamed returned with
    ⟨prin, member, -, isRow⟩ | ⟨cur, stored, -, -, isRow⟩
  · rw [isRow.id]
    exact Int.ne_of_gt (resourceId_pos member)
  · rcases tables.member cur stored with ⟨prin, member, same⟩
    rw [isRow.id, ← same]
    exact Int.ne_of_gt (resourceId_pos member)

/-- A row with a name is that of a principal with this name. -/
theorem isNamedRow_of_name
    (returned : row ∈
      returnedRows server database iteration tables groupId hrefs)
    (named : row.name = some name) :
    ∃ prin ∈ tables.principals, prin.name = name ∧
      name ∈ readNames server hrefs ∧ IsNamedRow tables groupId prin row := by
  rcases mem_returnedRows_cases allNamed returned with
    ⟨prin, member, listed, isRow⟩ | ⟨cur, -, -, -, isRow⟩
  · have same : prin.name = name :=
      Option.some.inj (isRow.name.symm.trans named)
    exact ⟨prin, member, same, same ▸ listed, isRow⟩
  · rw [isRow.name] at named
    cases named

/-- A row of a member without a name is that of a principal named so. -/
theorem isNamedRow_of_already
    (returned : row ∈
      returnedRows server database iteration tables groupId hrefs)
    (empty : row.name.getD [] = [])
    (already : row.isAlreadyAMember = some true) :
    ∃ prin ∈ tables.principals, prin.name = [] ∧
      [] ∈ readNames server hrefs ∧ IsMember tables groupId prin := by
  rcases mem_returnedRows_cases allNamed returned with
    ⟨prin, member, listed, isRow⟩ | ⟨cur, -, -, -, isRow⟩
  · rw [isRow.name, Option.getD_some] at empty
    exact ⟨prin, member, empty, empty ▸ listed, isRow.already.mp already⟩
  · rw [isRow.already] at already
    cases already

/-- The members to be removed are those whose names are not read. -/
theorem removed_iff
    (member : prin ∈ tables.principals)
    (isMember : IsMember tables groupId prin) :
    (∃ other ∈ ((returnedRows server database iteration tables groupId
          hrefs).filter fun row => IsRemoval row).map (changedPrin groupDbr),
        other.serialno = prin.resourceId) ↔
      prin.name ∉ readNames server hrefs := by
  constructor
  · rintro ⟨other, removal, same⟩
    rcases List.mem_map.mp removal with ⟨row, filtered, rfl⟩
    rcases List.mem_filter.mp filtered with ⟨returned, isRemoval⟩
    have isRemoval : IsRemoval row := of_decide_eq_true isRemoval
    rcases mem_returnedRows_cases allNamed returned with
      ⟨found, foundMember, -, isRow⟩ | ⟨cur, -, -, unnamed, isRow⟩
    · have sameId : found.resourceId = prin.resourceId := by
        rw [← same, changedPrin, isRow.id, Option.getD_some]
      rcases prin_eq_of_resourceId_eq foundMember member sameId with rfl
      exact (isRemoval.1 (isRow.already.mpr isMember)).elim
    · apply unnamed prin member
      rw [← same, changedPrin, isRow.id, Option.getD_some]
  · intro unread
    have unnamed : Unnamed tables
        (newNames iteration (namesHash server hrefs)) prin.resourceId := by
      intro other otherMember same named
      rcases prin_eq_of_resourceId_eq otherMember member same with rfl
      exact unread (mem_newNames.mp named)
    rcases exists_otherRow isMember rfl unnamed with ⟨row, returned, isRow⟩
    have isRemoval : IsRemoval row := by
      rw [IsRemoval, isRow.already, isRow.name]
      exact ⟨nofun, rfl⟩
    refine ⟨changedPrin groupDbr row, List.mem_map_of_mem
      (List.mem_filter.mpr ⟨mem_returnedRows.mpr returned,
        decide_eq_true isRemoval⟩), ?_⟩
    rw [changedPrin, isRow.id, Option.getD_some]

/-- A row is returned for every name that is read. -/
theorem exists_lastRow (read : name ∈ readNames server hrefs) :
    ∃ prin ∈ tables.principals, ∃ row, prin.name = name ∧
      lastRow (returnedRows server database iteration tables groupId hrefs)
        name = some row ∧
      IsNamedRow tables groupId prin row := by
  rcases (mem_readNames allNamed).mp read with ⟨prin, isListed, same⟩
  have named : prin.name ∈ newNames iteration (namesHash server hrefs) :=
    mem_newNames.mpr (same ▸ read)
  have exists_row : ∃ row ∈ changeRows tables groupId
      ((newNames iteration (namesHash server hrefs)).map dbmsEscape),
      IsNamedRow tables groupId prin row :=
    exists_namedRow isListed.1 named
  rcases exists_row with ⟨first, returned, isFirst⟩
  have listed : first ∈ (returnedRows server database iteration tables groupId
      hrefs).filter fun row => row.name == some name :=
    List.mem_filter.mpr ⟨mem_returnedRows.mpr returned,
      beq_iff_eq.mpr (isFirst.name.trans (congrArg some same))⟩
  rcases Option.isSome_iff_exists.mp (List.getLast?_isSome.mpr
      (List.ne_nil_of_mem listed)) with ⟨row, last⟩
  rcases List.mem_filter.mp (List.mem_of_getLast? last) with
    ⟨rowReturned, rowNamed⟩
  rcases isNamedRow_of_name allNamed rowReturned (beq_iff_eq.mp rowNamed) with
    ⟨found, member, foundName, -, isRow⟩
  exact ⟨found, member, row, foundName, last, isRow⟩

/-- The name of a listed principal is decided by the row returned last. -/
theorem lookup_named
    (read : name ∈ readNames server hrefs) (nonempty : name ≠ []) :
    ∃ prin ∈ tables.principals, ∃ row, prin.name = name ∧
      lastRow (returnedRows server database iteration tables groupId hrefs)
        name = some row ∧
      IsNamedRow tables groupId prin row ∧
      (((returnedRows server database iteration tables groupId
          hrefs).filterMap (rowEdit groupDbr)).foldl LastSeen.write
        (namesHash server hrefs)).lookup name = rowValue groupDbr row := by
  have returned : ∃ prin ∈ tables.principals, ∃ row, prin.name = name ∧
      lastRow (returnedRows server database iteration tables groupId hrefs)
        name = some row ∧
      IsNamedRow tables groupId prin row :=
    exists_lastRow allNamed read
  rcases returned with ⟨prin, member, row, same, last, isRow⟩
  refine ⟨prin, member, row, same, last, isRow, ?_⟩
  rw [lookup_edits nonempty, last]
  rfl

/-- A name that was not read is not in the hash. -/
theorem lookup_unread (unread : name ∉ readNames server hrefs) :
    (((returnedRows server database iteration tables groupId
        hrefs).filterMap (rowEdit groupDbr)).foldl LastSeen.write
      (namesHash server hrefs)).lookup name = none := by
  by_cases nonempty : name = []
  · rcases nonempty with rfl
    rw [lookup_edits_nil_of_not, lookup_namesHash_of_notMem unread]
    intro row returned empty already
    rcases isNamedRow_of_already allNamed returned empty already with
      ⟨-, -, -, read, -⟩
    exact unread read
  · have none : lastRow (returnedRows server database iteration tables groupId
        hrefs) name = none := by
      rw [lastRow, List.getLast?_eq_none_iff, List.filter_eq_nil_iff]
      intro row returned named
      rcases isNamedRow_of_name allNamed returned (beq_iff_eq.mp named) with
        ⟨-, -, -, read, -⟩
      exact unread read
    rw [lookup_edits nonempty, none, Option.map_none, Option.getD_none,
      lookup_namesHash_of_notMem unread]

/-- The hash and the removals after the rows of the query. -/
theorem validated_of_rows
    (isRemoved : removed =
      ((returnedRows server database iteration tables resource.serialno
        hrefs).filter fun row => IsRemoval row).map (changedPrin resource)) :
    Validated server tables resource hrefs
      (returnedRows server database iteration tables resource.serialno hrefs)
      (aprHashSet (((returnedRows server database iteration tables
          resource.serialno hrefs).filterMap (rowEdit resource)).foldl
        LastSeen.write (namesHash server hrefs)) toRemoveKey
        (if removed = [] then none else some (.removals removed)))
      removed where
  toRemove := lookup_aprHashSet
  removed := by
    intro prin member isMember
    rw [isRemoved]
    exact removed_iff allNamed member isMember
  unread := by
    intro name other unread
    rw [lookup_aprHashSet_of_ne other]
    exact lookup_unread allNamed unread
  named := by
    intro name read other nonempty
    rw [lookup_aprHashSet_of_ne other]
    exact lookup_named allNamed read nonempty
  blankMember := by
    intro prin member empty read isMember
    have named : prin.name ∈ newNames iteration (namesHash server hrefs) :=
      mem_newNames.mpr (empty ▸ read)
    rcases exists_namedRow member named with ⟨row, returned, isRow⟩
    rw [lookup_aprHashSet_of_ne (by decide)]
    exact lookup_edits_nil_of_already (mem_returnedRows.mpr returned)
      (isRow.name.trans (congrArg some empty)) (isRow.already.mpr isMember) _
  blank := by
    intro read fresh
    rw [lookup_aprHashSet_of_ne (by decide), lookup_edits_nil_of_not,
      lookup_namesHash_of_mem read]
    intro row returned empty already
    rcases isNamedRow_of_already allNamed returned empty already with
      ⟨prin, member, same, -, isMember⟩
    exact fresh prin member same isMember

end Rows

/-- Every current member is returned by `dbms_get_group_members`. -/
theorem exists_mem_memberRows
    (member : prin ∈ tables.principals)
    (isMember : IsMember tables groupId prin) :
    ∃ row ∈ memberRows tables groupId, row.resourceId = prin.resourceId := by
  rcases tables.resource prin member with ⟨resource, stored, same⟩
  refine ⟨⟨prin.resourceId, prin.name, resource.type⟩, ?_, rfl⟩
  refine List.mem_map.mpr ⟨((prin, ⟨groupId, prin.resourceId⟩), resource),
    List.mem_filter.mpr ⟨?_, ?_⟩, rfl⟩
  · rw [Sql.mem_crossJoin, Sql.mem_crossJoin]
    exact ⟨⟨member, isMember⟩, stored⟩
  · simp [same]

/-- The hash and the removals when the list is empty. -/
theorem validated_of_members
    (empty : readNames server hrefs = [])
    (isRemoved : removed = (database.members.arrange 0
      (memberRows tables resource.serialno)).map (readMember resource)) :
    Validated server tables resource hrefs rows
      (aprHashSet (namesHash server hrefs) toRemoveKey
        (if removed = [] then none else some (.removals removed)))
      removed where
  toRemove := lookup_aprHashSet
  removed := by
    intro prin member isMember
    rw [empty, isRemoved]
    refine iff_of_true ?_ List.not_mem_nil
    rcases exists_mem_memberRows member isMember with ⟨row, returned, same⟩
    refine ⟨readMember resource row, List.mem_map_of_mem
      (Sql.RowOrder.mem_arrange.mpr returned), same⟩
  unread := by
    intro name other unread
    rw [lookup_aprHashSet_of_ne other]
    exact lookup_namesHash_of_notMem unread
  named := by
    intro name read
    rw [empty] at read
    cases read
  blankMember := by
    intro prin member same read
    rw [empty] at read
    cases read
  blank := by
    intro read
    rw [empty] at read
    cases read

theorem entries_namesHash_eq_nil :
    (namesHash server hrefs).entries = [] ↔ readNames server hrefs = [] := by
  constructor
  · intro empty
    rw [List.eq_nil_iff_forall_not_mem]
    intro name read
    have found := lookup_namesHash_of_mem read
    have none : namesHash server hrefs = ∅ := AList.ext empty
    rw [none, AList.lookup_empty] at found
    cases found
  · intro empty
    rw [namesHash, empty]
    rfl

/-- What the calculation returns for a list of `href` elements. -/
theorem dbmsCalculateGroupChanges_eq_ok
    {changes : MemberHash × List DavReposResource}
    (allNamed : AllNamed server tables hrefs)
    (calculated : dbmsCalculateGroupChanges database iteration tables resource
      (namesHash server hrefs) = .ok changes) :
    (∃ name ∈ readNames server hrefs, '?' ∈ name) ∧
        changes = (namesHash server hrefs, []) ∨
      (∀ name ∈ readNames server hrefs, '?' ∉ name) ∧
        changes = (((returnedRows server database iteration tables
            resource.serialno hrefs).filterMap (rowEdit resource)).foldl
          LastSeen.write (namesHash server hrefs),
          ((returnedRows server database iteration tables resource.serialno
            hrefs).filter fun row => IsRemoval row).map
              (changedPrin resource)) := by
  have sent := isSome_sentChanges resource.serialno
    (newNames iteration (namesHash server hrefs))
  simp only [mem_newNames] at sent
  rw [dbmsCalculateGroupChanges] at calculated
  cases query : sentChanges resource.serialno
      (newNames iteration (namesHash server hrefs)) with
  | none =>
      rw [query] at sent calculated
      left
      refine ⟨?_, (Except.ok.inj calculated).symm⟩
      by_contra free
      push Not at free
      exact Bool.false_ne_true (sent.mpr free)
  | some text =>
      rw [query] at sent calculated
      right
      refine ⟨sent.mp rfl, ?_⟩
      have read := (ite_error_eq_ok.mp calculated).2
      have found : ∀ row ∈ returnedRows server database iteration tables
          resource.serialno hrefs, row.id.getD 0 ≠ 0 :=
        fun row => id_ne_zero allNamed
      exact (Except.ok.inj
        ((foldlM_readChange found (namesHash server hrefs)).symm.trans
          read)).symm

/-- What a validation that succeeds has computed. -/
theorem davAclPatchValidate_spec
    (allNamed : AllNamed server tables hrefs)
    (valid : davAclPatchValidate server database iteration tables resource
      operation hrefs = .ok context) :
    (∃ name ∈ readNames server hrefs, '?' ∈ name ∧ name ≠ toRemoveKey ∧
        context.lookup name = some .empty ∧
        context.lookup toRemoveKey = none) ∨
      (∀ name ∈ readNames server hrefs, '?' ∉ name) ∧
        ∃ removed, Validated server tables resource hrefs
          (returnedRows server database iteration tables resource.serialno
            hrefs) context removed := by
  rw [davAclPatchValidate, ite_error_eq_ok, foldlM_readHref allNamed] at valid
  rcases bind_eq_ok.mp valid.2 with ⟨newMembers, started, rest⟩
  rcases Except.ok.inj started with rfl
  rcases bind_eq_ok.mp rest with ⟨changes, calculated, ended⟩
  rcases Except.ok.inj ended with rfl
  by_cases empty : (namesHash server hrefs).entries = []
  · have unread : readNames server hrefs = [] :=
      entries_namesHash_eq_nil.mp empty
    rw [if_neg (not_not_intro empty), dbmsGetGroupMembers] at calculated
    split at calculated
    next => cases calculated
    next =>
        rcases Except.ok.inj calculated with rfl
        right
        refine ⟨?_, _, validated_of_members unread rfl⟩
        intro name read
        rw [unread] at read
        cases read
  · rw [if_pos empty] at calculated
    rcases dbmsCalculateGroupChanges_eq_ok allNamed calculated with
      ⟨⟨name, read, mark⟩, rfl⟩ | ⟨free, rfl⟩
    · left
      have other : name ≠ toRemoveKey := by
        rintro rfl
        exact absurd mark (by decide)
      refine ⟨name, read, mark, other, ?_, lookup_aprHashSet⟩
      rw [lookup_aprHashSet_of_ne other]
      exact lookup_namesHash_of_mem read
    · exact Or.inr ⟨free, _, validated_of_rows allNamed rfl⟩

end Limestone.GroupChanges
