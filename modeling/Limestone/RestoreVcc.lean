import Limestone.GetResource
import Limestone.Library.SqlScan
import Limestone.StatementExecution
import Limestone.VersionLinks

/-!
# Checked-out resources: `dav_repos_uncheckout`

A check-out changes the state of the resource only.  To undo what was done
since, the version is looked up by its URI: the content of a medium is copied
from it, and the binds of a collection are deleted and written again with
three statements.  None of these is well formed: `USING` has no parentheses,
the last one is missing, and one row constructor stands for five columns.
-/

namespace Limestone.RestoreVcc

open Library
open BridgeMkcol (Stop)
open BridgeProperty (DavReposResource)
open CopyMedium
open DbmsBind
open DbmsDeltav (CheckedState Vcr)
open GetResource
open StatementExecution (Driver SetCall preparedQuery)

/-! ## The state of a version-controlled resource -/

/-- The tables of the version histories. -/
def versionTables (store : ContentStore) : DbmsDeltav.VersionTables where
  resources := store.resources.map fun row => (row.id, row.type)
  nextId := store.nextId
  versions := store.versions
  vhrs := store.vhrs
  vcrs := store.vcrs

/-- The fields of a record about versions. -/
def versionDbr (r : DavReposResource) : DbmsDeltav.DavReposResource where
  serialno := r.serialno
  resourcetype := r.resourcetype
  checkedState := r.checkedState
  checkedId := r.checkedId
  vhrId := r.vhrId
  vrNum := r.vrNum
  autoversionType := r.autoversionType
  checkinOnUnlock := false

/-- `dbms_set_checkin_out`. -/
def dbmsSetCheckinOut (store : ContentStore) (r : DavReposResource)
    (checkedState : CheckedState) (versionNum : Int) :
    Except Stop (ContentStore × DavReposResource) :=
  match DbmsDeltav.dbmsSetCheckinOut (versionTables store) (versionDbr r)
      checkedState versionNum with
  | .error err => .error (.davError err)
  | .ok (tables, set) =>
      .ok ({ store with vcrs := tables.vcrs },
        { r with
          checkedId := set.checkedId
          checkedState := set.checkedState
          vrNum := set.vrNum })

/-- The record of the version history. -/
def getVhr (store : ContentStore) (dbR : DavReposResource) :
    Except Stop DavReposResource :=
  sabridgeGetProperty store
    { rootPath := dbR.rootPath, serialno := dbR.vhrId }

/--
`dav_repos_checkout`; the fields of the `dav_resource` and the working
resource are left out.
-/
def davReposCheckout (store : ContentStore) (dbR : DavReposResource) :
    Except Stop (ContentStore × DavReposResource) := do
  let _ ← getVhr store dbR
  if dbR.checkedState ≠ .checkedIn then
    .error (.davError ⟨httpConflict, "<DAV:must-be-checked-in/>"⟩)
  else dbmsSetCheckinOut store dbR .checkedOut dbR.vrNum

/-! ## The state of the resource -/

/-- What `dbms_set_checkin_out` writes if the version stays the same. -/
def setState (checkedState : CheckedState) (serialno checkedId : Id)
    (vcr : Vcr) : Vcr :=
  if vcr.resourceId = serialno then
    { vcr with checkedState := checkedState, checkedId := checkedId }
  else vcr

theorem dbmsSetCheckinOut_same
    {store : ContentStore} {r : DavReposResource}
    (checkedState : CheckedState)
    (nonzero : r.checkedId ≠ 0) :
    dbmsSetCheckinOut store r checkedState r.vrNum =
      .ok ({ store with
          vcrs := store.vcrs.map
            (setState checkedState r.serialno r.checkedId) },
        { r with checkedState := checkedState }) := by
  unfold dbmsSetCheckinOut DbmsDeltav.dbmsSetCheckinOut
  rw [if_pos ⟨rfl, nonzero⟩]
  rfl

section State

variable {vcrs : List Vcr} {vcr : Vcr} {state : CheckedState} {id : Id}

theorem resourceId_setState (row : Vcr) :
    (setState state vcr.resourceId vcr.checkedId row).resourceId =
      row.resourceId := by
  unfold setState
  split <;> rfl

theorem find?_map_setState :
    ((vcrs.map (setState state vcr.resourceId vcr.checkedId)).find?
        fun row => row.resourceId == id) =
      (vcrs.find? fun row => row.resourceId == id).map
        (setState state vcr.resourceId vcr.checkedId) := by
  rw [List.find?_map]
  congr 1
  apply congrArg (vcrs.find? ·)
  funext row
  rw [Function.comp_apply, resourceId_setState]

/-- The row of the resource is the only one with its id. -/
theorem eq_of_resourceId
    {row : Vcr}
    (key : (vcrs.map Vcr.resourceId).Nodup)
    (listed : vcr ∈ vcrs)
    (member : row ∈ vcrs)
    (same : row.resourceId = vcr.resourceId) : row = vcr :=
  List.inj_on_of_nodup_map key member listed same

theorem find?_vcr
    (key : (vcrs.map Vcr.resourceId).Nodup)
    (listed : vcr ∈ vcrs) :
    (vcrs.find? fun row => row.resourceId == vcr.resourceId) = some vcr := by
  cases found : vcrs.find? fun row =>
      row.resourceId == vcr.resourceId with
  | none =>
      exact absurd (beq_self_eq_true vcr.resourceId)
        (List.find?_eq_none.mp found vcr listed)
  | some row =>
      have same := List.find?_some found
      rw [beq_iff_eq] at same
      rw [eq_of_resourceId key listed (List.mem_of_find?_eq_some found) same]

/-- A check-in after a check-out from the same version. -/
theorem map_setState_setState
    (key : (vcrs.map Vcr.resourceId).Nodup)
    (listed : vcr ∈ vcrs) :
    (vcrs.map (setState state vcr.resourceId vcr.checkedId)).map
        (setState vcr.checkedState vcr.resourceId vcr.checkedId) = vcrs := by
  rw [List.map_map]
  conv_rhs => rw [← List.map_id vcrs]
  apply List.map_congr_left
  intro row member
  rw [Function.comp_apply]
  by_cases same : row.resourceId = vcr.resourceId
  · rcases eq_of_resourceId key listed member same with rfl
    unfold setState
    rw [if_pos rfl, if_pos rfl]
    rfl
  · unfold setState
    rw [if_neg same, if_neg same]
    rfl

end State

section Checkout

variable {store : ContentStore} {rootPath : Text} {vcr : Vcr} {number : Int}
  {dbR : DavReposResource}

theorem getVhr_isOk
    (isRecord : IsVcrRecord store rootPath vcr number dbR)
    (historyType : typeOf store vcr.vhrId = some .versionHistory) :
    ∃ vhr, getVhr store dbR = .ok vhr ∧
      IsRecordOf store rootPath vcr.vhrId vhr := by
  unfold getVhr
  apply sabridgeGetProperty_isOk_of_id
  · exact ⟨isRecord.vhrId, isRecord.rootPath, rfl, rfl, rfl⟩
  · exact Int.ne_of_gt (typeOf_pos historyType)
  · rw [historyType]
    decide

/-- A check-out succeeds and writes the state. -/
theorem davReposCheckout_of_checkedIn
    (isRecord : IsVcrRecord store rootPath vcr number dbR)
    (checkedIn : vcr.checkedState = .checkedIn)
    (historyType : typeOf store vcr.vhrId = some .versionHistory)
    (nonzero : vcr.checkedId ≠ 0) :
    davReposCheckout store dbR =
      .ok ({ store with
          vcrs := store.vcrs.map
            (setState .checkedOut vcr.resourceId vcr.checkedId) },
        { dbR with checkedState := .checkedOut }) := by
  rcases getVhr_isOk isRecord historyType with ⟨vhr, isVhr, -⟩
  have state : dbR.checkedState = .checkedIn :=
    isRecord.checkedState.trans checkedIn
  unfold davReposCheckout
  rw [isVhr]
  show (if dbR.checkedState ≠ .checkedIn then _ else _) = _
  rw [if_neg (not_not.mpr state),
    dbmsSetCheckinOut_same _ (isRecord.checkedId ▸ nonzero),
    isRecord.serialno, isRecord.checkedId]

end Checkout

/-! ## The binds of a collection -/

/-- The first statement of `dbms_restore_vcc`. -/
def deleteControlled : Text :=
  ("DELETE FROM binds " ++
    "WHERE collection_id=? AND resource_id IN " ++
    "(SELECT resource_id FROM binds INNER JOIN vcrs USING resource_id " ++
    "WHERE collection_id=?)").toList

/-- The second statement. -/
def deleteConflicting : Text :=
  ("DELETE FROM binds " ++
    "WHERE collection_id=? AND name IN " ++
    "(SELECT name FROM binds WHERE collection_id=?").toList

/-- The third statement. -/
def insertRecorded : Text :=
  ("INSERT INTO binds " ++
    " (SELECT (NULL, name, ?, vcrs.resource_id, updated_at) " ++
    "  FROM binds JOIN vcrs ON binds.resource_id=vcrs.vhr_id " ++
    "  WHERE collection_id=?) ").toList

/-- A statement with two ids is prepared and executed. -/
def execute (driver : Driver ContentStore) (store : ContentStore)
    (template : Text) (first second : Id) : Except Stop ContentStore :=
  let execution := StatementExecution.dbmsExecute driver
    (preparedQuery template [.int 1 first, .int 2 second]) store
  if execution.returned ≠ 0 then
    .error (.davError ⟨httpInternalServerError, "DBMS Error"⟩)
  else .ok execution.database

/-- `dbms_restore_vcc`. -/
def dbmsRestoreVcc (driver : Driver ContentStore) (store : ContentStore)
    (vcc cvr : DavReposResource) : Except Stop ContentStore := do
  let store ← execute driver store deleteControlled vcc.serialno vcc.serialno
  let store ← execute driver store deleteConflicting vcc.serialno cvr.serialno
  execute driver store insertRecorded vcc.serialno cvr.serialno

/-- The record that the URI of the checked version leads to. -/
def getCheckedVersion (store : ContentStore) (vhr dbR : DavReposResource) :
    Except Stop DavReposResource :=
  sabridgeGetProperty store
    { rootPath := dbR.rootPath
      uri := some (VersionLinks.sabridgeMkVersionUri
        (vhr.rootPath.getD []) vhr.serialno dbR.vrNum) }

/-- What is done to the resource before its state is set. -/
def restore (driver : Driver ContentStore) (request : Request)
    (store : ContentStore) (version dbR : DavReposResource) :
    Except Stop (ContentStore × DavReposResource) :=
  match dbR.resourcetype with
  | some .versionedCollection => do
      let store ← dbmsRestoreVcc driver store dbR version
      return (store, dbR)
  | some .versioned => sabridgeCopyMedium request store version dbR
  | _ => .ok (store, dbR)

/-- `dav_repos_uncheckout`. -/
def davReposUncheckout (driver : Driver ContentStore) (request : Request)
    (store : ContentStore) (dbR : DavReposResource) :
    Except Stop (ContentStore × DavReposResource) := do
  if dbR.checkedState ≠ .checkedOut then
    .error (.davError ⟨httpConflict, "<DAV:must-be-checked-out/>"⟩)
  else do
    let vhr ← getVhr store dbR
    let version ← getCheckedVersion store vhr dbR
    let (store, dbR) ← restore driver request store version dbR
    dbmsSetCheckinOut store dbR .checkedIn dbR.vrNum

/-! ## What is to hold -/

/-- A bind of the collection that is made or removed. -/
inductive BindChange where
  | insert (resourceId : Id) (name : Text)
  | delete (resourceId : Id) (name : Text)
deriving DecidableEq, Repr

/-- `resources` and its sequence. -/
def resourceTable (store : ContentStore) : BridgeMkcol.ResourceTable where
  rows := store.resources.map fun row =>
    ⟨row.id, row.type, row.limebarState⟩
  nextId := store.nextId
  nextIdPos := store.nextIdPos
  ids := by
    intro row member
    rcases List.mem_map.mp member with ⟨old, listed, rfl⟩
    exact store.ids old listed
  pkey := by
    rw [List.map_map]
    exact store.pkey

/-- `binds` and its sequence. -/
def bindSequence (store : ContentStore) : BridgeMkcol.BindSequence where
  toBindTable := store.binds
  nextId := store.nextBindId
  nextIdPos := store.nextBindIdPos
  ids := store.bindIds

/-- The store with other binds. -/
def withBinds (store : ContentStore) (binds : BridgeMkcol.BindSequence) :
    ContentStore :=
  { store with
    binds := binds.toBindTable
    nextBindId := binds.nextId
    nextBindIdPos := binds.nextIdPos
    bindIds := binds.ids }

/-- `dbms_insert_bind`. -/
def dbmsInsertBind (request : Request) (store : ContentStore)
    (resourceId collectionId : Id) (bindname : Text) :
    Except DavError ContentStore :=
  (BridgeMkcol.dbmsInsertBind (resourceTable store) (bindSequence store)
    request.now resourceId collectionId bindname).map (withBinds store)

/-- `dbms_delete_bind`. -/
def dbmsDeleteBind (store : ContentStore) (collId resId : Id)
    (bindName : Text) : ContentStore :=
  { store with
    binds := store.binds.keep fun bind =>
      !(bind.collectionId == collId && bind.resourceId == resId &&
        bind.name == bindName)
    bindIds := fun bind member =>
      store.bindIds bind (List.mem_of_mem_filter member) }

/-- A change of a collection; an INSERT that fails changes nothing. -/
def BindChange.apply (request : Request) (collId : Id)
    (store : ContentStore) : BindChange → ContentStore
  | .insert resourceId name =>
      match dbmsInsertBind request store resourceId collId name with
      | .ok inserted => inserted
      | .error _ => store
  | .delete resourceId name => dbmsDeleteBind store collId resourceId name

/-- The resource is under version control. -/
def IsControlled (store : ContentStore) (resourceId : Id) : Prop :=
  resourceId ∈ store.vcrs.map Vcr.resourceId

/-- The version of the collection records the resource under the name. -/
def Records (store : ContentStore) (cvr : Id) (name : Text)
    (resourceId : Id) : Prop :=
  ∃ bind ∈ store.binds.rows, bind.collectionId = cvr ∧ bind.name = name ∧
    ∃ vcr ∈ store.vcrs, vcr.vhrId = bind.resourceId ∧
      vcr.resourceId = resourceId

/-- The binds of a collection are those of its version again. -/
structure RestoresBinds (before after : ContentStore) (vcc cvr : Id) :
    Prop where
  controlled : ∀ name resourceId,
    (∃ bind ∈ after.binds.rows, bind.collectionId = vcc ∧
        bind.name = name ∧ bind.resourceId = resourceId ∧
        IsControlled after resourceId) ↔
      Records before cvr name resourceId
  plain : ∀ bind ∈ before.binds.rows, bind.collectionId = vcc →
    ¬ IsControlled before bind.resourceId →
    (¬ ∃ resourceId, Records before cvr bind.name resourceId) →
    bind ∈ after.binds.rows

/-- The check-out is undone after some changes of the collection. -/
def UndoesChanges (driver : Driver ContentStore) (request : Request)
    (store : ContentStore) (dbR : DavReposResource)
    (changes : List BindChange) : Prop :=
  let changed := changes.foldl (BindChange.apply request dbR.serialno) store
  ∃ after, davReposUncheckout driver request changed dbR = .ok after ∧
    RestoresBinds changed after.1 dbR.serialno dbR.checkedId

/-- A statement whose parentheses do not match is not accepted. -/
def RejectsUnbalanced (driver : Driver ContentStore) : Prop :=
  ∀ text store, (∀ backslash, SqlScan.IsUnbalanced backslash text) →
    (driver.send text store).1 ≠ 0

/-! ## The second statement -/

theorem escquery_two
    {template : Text} (first second : Id)
    (two : template.count '?' = 2) :
    DbmsDbd.escquery
        (preparedQuery template [.int 1 first, .int 2 second]) =
      some (DbmsDbd.substitute template
        [(toString first).toList, (toString second).toList]) := by
  have parameters :
      (preparedQuery template [.int 1 first, .int 2 second]).parameters =
        [(toString first).toList, (toString second).toList].map some := by
    rw [StatementExecution.parameters_preparedQuery, two]
    rfl
  rw [DbmsDbd.escquery, StatementExecution.queryString_preparedQuery,
    StatementExecution.mapM_id_eq_some.mpr parameters]
  rfl

/-- A statement that goes through has been accepted. -/
theorem send_of_execute
    {driver : Driver ContentStore} {store after : ContentStore}
    {template : Text} {first second : Id}
    (two : template.count '?' = 2)
    (executed : execute driver store template first second = .ok after) :
    (driver.send (DbmsDbd.substitute template
      [(toString first).toList, (toString second).toList]) store).1 = 0 := by
  unfold execute at executed
  rcases ite_error_eq_ok.mp executed with ⟨accepted, -⟩
  rw [StatementExecution.dbmsExecute, escquery_two first second two]
    at accepted
  exact not_not.mp accepted

/-- The texts before the ids of the second statement. -/
def beforeFirst : Text :=
  "DELETE FROM binds WHERE collection_id=".toList

def beforeSecond : Text :=
  " AND name IN (SELECT name FROM binds WHERE collection_id=".toList

theorem substitute_deleteConflicting (first second : Text) :
    DbmsDbd.substitute deleteConflicting [first, second] =
      beforeFirst ++ (first ++ (beforeSecond ++ second)) := by
  have split : deleteConflicting =
      beforeFirst ++ '?' :: (beforeSecond ++ ['?']) := by
    decide
  rw [split, DbmsDbd.substitute_append _ _ (by decide), DbmsDbd.substitute,
    if_pos rfl, DbmsDbd.substitute_append _ _ (by decide), DbmsDbd.substitute,
    if_pos rfl, DbmsDbd.substitute, List.append_nil]

section Unbalanced

variable {backslash : Bool}

/-- The tokens of the two texts; an operator is left open. -/
def firstTokens : List SqlScan.Token :=
  [.word "DELETE".toList, .word "FROM".toList, .word "binds".toList,
    .word "WHERE".toList, .word "collection_id".toList]

def secondTokens : List SqlScan.Token :=
  [.word "AND".toList, .word "name".toList, .word "IN".toList, .symbol '(',
    .word "SELECT".toList, .word "name".toList, .word "FROM".toList,
    .word "binds".toList, .word "WHERE".toList, .word "collection_id".toList]

theorem run_beforeFirst :
    SqlScan.run backslash SqlScan.start beforeFirst =
      ⟨firstTokens, .operator ['=']⟩ := by
  cases backslash <;> decide

theorem run_beforeSecond (tokens : List SqlScan.Token) (digits : Text) :
    SqlScan.run backslash ⟨tokens, .number digits⟩ beforeSecond =
      ⟨tokens ++ (.number digits :: secondTokens), .operator ['=']⟩ := by
  have rest : SqlScan.run backslash SqlScan.start beforeSecond =
      ⟨secondTokens, .operator ['=']⟩ := by
    cases backslash <;> decide
  have shifted : SqlScan.run backslash
      ⟨(tokens ++ [.number digits]) ++ [], .ground⟩ beforeSecond =
        ⟨(tokens ++ [.number digits]) ++
            (SqlScan.run backslash SqlScan.start beforeSecond).tokens,
          (SqlScan.run backslash SqlScan.start beforeSecond).mode⟩ :=
    SqlScan.run_tokens _
  rw [List.append_nil, rest] at shifted
  -- the blank ends the number
  have blank : SqlScan.run backslash ⟨tokens, .number digits⟩ beforeSecond =
      SqlScan.run backslash ⟨tokens ++ [.number digits], .ground⟩
        beforeSecond :=
    rfl
  rw [blank, shifted, List.append_assoc]
  rfl

/-- The second statement lacks its last parenthesis, whatever the ids are. -/
theorem isUnbalanced_deleteConflicting (first second : Id) :
    SqlScan.IsUnbalanced backslash (DbmsDbd.substitute deleteConflicting
      [(toString first).toList, (toString second).toList]) := by
  have noComment : ['='].getLast? ≠ some '-' := by decide
  rcases @SqlScan.run_operator_int backslash firstTokens _ noComment first
    with ⟨sign, digits, readFirst⟩
  rcases @SqlScan.run_operator_int backslash
    (firstTokens ++ [.operator sign] ++ .number digits :: secondTokens) _
      noComment second with ⟨otherSign, otherDigits, readSecond⟩
  rw [substitute_deleteConflicting]
  refine ⟨firstTokens ++ [.operator sign] ++ .number digits :: secondTokens ++
    [.operator otherSign] ++ [.number otherDigits], ?_, ?_⟩
  · rw [SqlScan.tokenize, SqlScan.run_append, run_beforeFirst,
      SqlScan.run_append, readFirst, SqlScan.run_append, run_beforeSecond,
      readSecond]
    rfl
  · have opened : firstTokens.count (.symbol '(') = 0 ∧
        secondTokens.count (.symbol '(') = 1 := by
      decide
    have closed : firstTokens.count (.symbol ')') = 0 ∧
        secondTokens.count (.symbol ')') = 0 := by
      decide
    simp [List.count_append, opened, closed]

end Unbalanced

/-! ## No collection is restored -/

section Fails

variable {driver : Driver ContentStore}

theorem dbmsRestoreVcc_ne_ok
    (rejects : RejectsUnbalanced driver) (store after : ContentStore)
    (vcc cvr : DavReposResource) :
    dbmsRestoreVcc driver store vcc cvr ≠ .ok after := by
  intro restored
  rcases bind_eq_ok.mp restored with ⟨deleted, -, rest⟩
  rcases bind_eq_ok.mp rest with ⟨cleared, executed, -⟩
  have two : deleteConflicting.count '?' = 2 := by decide
  have accepted := send_of_execute two executed
  exact rejects _ deleted
    (fun _ => isUnbalanced_deleteConflicting vcc.serialno cvr.serialno) accepted

theorem davReposUncheckout_ne_ok
    (rejects : RejectsUnbalanced driver) (request : Request)
    (store : ContentStore) {dbR : DavReposResource}
    (collection : dbR.resourcetype = some .versionedCollection)
    (after : ContentStore × DavReposResource) :
    davReposUncheckout driver request store dbR ≠ .ok after := by
  intro succeeds
  unfold davReposUncheckout at succeeds
  rcases ite_error_eq_ok.mp succeeds with ⟨-, found⟩
  rcases bind_eq_ok.mp found with ⟨vhr, -, versioned⟩
  rcases bind_eq_ok.mp versioned with ⟨version, -, rest⟩
  rcases bind_eq_ok.mp rest with ⟨last, restored, -⟩
  rw [restore, collection] at restored
  rcases bind_eq_ok.mp restored with ⟨cleared, undone, -⟩
  exact dbmsRestoreVcc_ne_ok rejects store cleared dbR version undone

/--
No check-out of a collection is undone, with any binds recorded and any
changes made, by a database that does not accept what is no statement.
-/
theorem not_undoesChanges
    (rejects : RejectsUnbalanced driver) (request : Request)
    (store : ContentStore) (dbR : DavReposResource)
    (collection : dbR.resourcetype = some .versionedCollection)
    (changes : List BindChange) :
    ¬ UndoesChanges driver request store dbR changes := by
  rintro ⟨after, succeeds, -⟩
  exact davReposUncheckout_ne_ok rejects request _ collection after succeeds

end Fails

/-! ## A collection with one member -/

/-- A join names its columns in parentheses. -/
def joinColumns : List SqlScan.Token → Bool
  | [] => true
  | token :: rest =>
      (match token, rest with
      | .word join, .word _ :: .word keyword :: next =>
          !(join == "JOIN".toList && keyword == "USING".toList) ||
            next.head? == some (.symbol '(')
      | _, _ => true) && joinColumns rest

/-- The parentheses match, also those that a join needs. -/
def isAccepted (text : Text) : Bool :=
  match SqlScan.tokenize false text with
  | none => false
  | some tokens =>
      tokens.count (.symbol '(') == tokens.count (.symbol ')') &&
        joinColumns tokens

/-- A database that looks at the parentheses of a statement. -/
def checking : Driver ContentStore where
  select := fun text store => (if isAccepted text then 0 else 1, store)
  query := fun text store => (if isAccepted text then 0 else 1, store)
  selectFails := fun _ _ _ => rfl
  queryFails := fun _ _ _ => rfl

theorem rejectsUnbalanced_checking : RejectsUnbalanced checking := by
  intro text store unbalanced
  rcases unbalanced false with ⟨tokens, scanned, different⟩
  have refused : isAccepted text = false := by
    rw [isAccepted, scanned]
    simp [different]
  have sent : (checking.send text store).1 = 1 := by
    rw [Driver.send]
    split
    · show (if isAccepted text then (0 : Int) else 1) = 1
      rw [refused]
      rfl
    · show (if isAccepted text then (0 : Int) else 1) = 1
      rw [refused]
      rfl
  rw [sent]
  decide

/-- A row of `resources` with a name and a type. -/
def namedRow (id : Id) (name : String) (type : ResourceType) :
    BridgeProperty.ResourceRow where
  id := id
  uuid := []
  createdAt := []
  displayname := some name.toList
  contentlanguage := []
  comment := none
  type := type
  ownerId := 1
  creatorId := 1
  limebarState := none
  lastmodified := none

/--
The collection 3 is checked out from version 6 of history 5, with the member 4
of history 7.
-/
def oneMember : ContentStore where
  binds :=
    { rows := [⟨1, "c".toList, 2, 3, none⟩, ⟨2, "a".toList, 3, 4, none⟩,
        ⟨3, "a".toList, 6, 7, none⟩]
      pkey := by decide
      collectionIdKey := by decide
      positive := by decide }
  resources :=
    [namedRow 2 "" .collection, namedRow 3 "c" .versionedCollection,
      namedRow 4 "a" .versioned, namedRow 5 "vhr" .versionHistory,
      namedRow 6 "1" .collectionVersion, namedRow 7 "vhr" .versionHistory,
      namedRow 8 "1" .version]
  redirectrefs := []
  collections := []
  media := []
  principals := []
  versions := [⟨6, 1, 3, 5⟩, ⟨8, 1, 4, 7⟩]
  vhrs := [⟨5, 6⟩, ⟨7, 8⟩]
  vcrs := [⟨3, 6, 5, .checkedOut, none, false⟩,
    ⟨4, 8, 7, .checkedIn, none, false⟩]
  nextId := 9
  nextIdPos := nine_pos
  ids := by decide
  pkey := by decide
  nextBindId := 4
  nextBindIdPos := by decide
  bindIds := by decide
  dead :=
    { properties := []
      nextId := 1
      namespaces := []
      resources := [2, 3, 4, 5, 6, 7, 8]
      namespaceKeys := List.nodup_nil
      namespaceExists := DbmsProperties.noProperties_namespaceExists }
  deadResources := by decide
  files := []

/-- The record of the collection. -/
def collectionDbr : DavReposResource where
  serialno := 3
  rootPath := some []
  resourcetype := some .versionedCollection
  checkedState := .checkedOut
  checkedId := 6
  vhrId := 5
  vrNum := 1

def someRequest : Request where
  now := []
  uuid := []
  principalId := 1
  keepFiles := false

theorem not_undoesChanges_oneMember :
    RejectsUnbalanced checking ∧
      collectionDbr.resourcetype = some .versionedCollection ∧
      ¬ UndoesChanges checking someRequest oneMember collectionDbr
        [.delete 4 "a".toList] :=
  ⟨rejectsUnbalanced_checking, rfl,
    not_undoesChanges rejectsUnbalanced_checking someRequest oneMember
      collectionDbr rfl [.delete 4 "a".toList]⟩

/-- The bind of the member is not written again. -/
theorem exists_not_undone :
    ¬ ∀ (driver : Driver ContentStore), RejectsUnbalanced driver →
      ∀ (request : Request) (store : ContentStore) (dbR : DavReposResource)
        (changes : List BindChange),
      dbR.resourcetype = some .versionedCollection →
        UndoesChanges driver request store dbR changes := by
  intro always
  rcases always checking rejectsUnbalanced_checking someRequest oneMember
    collectionDbr [.delete 4 "a".toList] rfl with ⟨after, succeeds, -⟩
  exact davReposUncheckout_ne_ok rejectsUnbalanced_checking someRequest _ rfl
    after succeeds

end Limestone.RestoreVcc
