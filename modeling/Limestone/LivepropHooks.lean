import Limestone.AclLiveprops
import Limestone.AprXml
import Limestone.DomainMaps
import Limestone.Library.Rollback

/-!
# Setting live properties: `limebits_liveprops.c` and `deltav_liveprops.c`

A hook validates each operation of a PROPPATCH, another one executes it, and a
third one commits or rolls back.  Some properties are written when they are
executed, others are changed in memory and written at the commit if they
differ from a saved value.
-/

namespace Limestone.LivepropHooks

open Library
open AclLiveprops (PropOp)
open AprXml
open DbmsProperties (IsCut varchar varchar_cases varchar_length)
open DomainMaps

/-! ## Operations -/

/-- The stored live properties. -/
inductive Propid where
  | domainMap
  | loginToAllDomains
  | autoVersionNewChildren
  | limebarState
  /-- `DAV:auto-version`. -/
  | autoVersion
deriving DecidableEq, Repr

/-- An operation with the element of its property. -/
structure PatchOp where
  propid : Propid
  operation : PropOp
  elem : AprXmlElem

/-- The operation sets the property. -/
def PatchOp.Sets (op : PatchOp) (propid : Propid) : Prop :=
  op.propid = propid ∧ op.operation = .set

instance (op : PatchOp) (propid : Propid) : Decidable (op.Sets propid) :=
  inferInstanceAs (Decidable (_ ∧ _))

/-- The name of the first child of an element, or the empty text. -/
def firstChildName (elem : AprXmlElem) : Text :=
  match elem.children with
  | [] => []
  | child :: _ => child.name

/-- `DAV_AV_NONE`. -/
def davAvNone : Int := 5

/-- `DAV_AV_CHECKOUT_CHECKIN`. -/
def davAvCheckoutCheckin : Int := 1

/-- The values of the properties on versions, with their numbers. -/
def avTypes : List (Text × Int) :=
  [("checkout-checkin".toList, davAvCheckoutCheckin),
    ("checkout-unlocked-checkin".toList, 2), ("checkout".toList, 3),
    ("locked-checkout".toList, 4), ("version-control".toList, 6)]

def avType (name : Text) : Option Int :=
  avTypes.lookup name

/-! ## Resources -/

/-- The server and the libraries. -/
structure Server where
  /-- `defn_name`. -/
  defnName : Text
  davXmlGetCdata : AprXmlElem → Text
  /-- `apr_xml_to_text` with `APR_XML_X2T_INNER`. -/
  innerText : AprXmlElem → Text
  /-- `dav_get_permission_denied_status`. -/
  permissionDeniedStatus : Nat
  order : HashOrder
  rowOrder : Sql.RowOrder UserDomain

/-- What does not change about the resource. -/
structure Target where
  serialno : Id
  /-- The type is `dav_repos_USER`. -/
  isUser : Bool
  collection : Bool
  versioned : Bool
  /-- `is_allow_read_private_properties`. -/
  mayReadPrivate : Bool

/-- The rows of the resource, and the fields of its `dav_repos_resource`. -/
structure State where
  /-- `auto_version_new_children` in the row of `collections`. -/
  collectionRow : Option Int
  /-- `user_domains`. -/
  domains : DomainTable
  /-- `login_to_all_domains` in the row of `users`. -/
  userRow : Option Bool
  /-- `limebar_state` in the row of `resources`. -/
  limebarRow : Option Text
  /-- `version_type` in the row of `vcrs`. -/
  vcrRow : Option Int
  avNewChildren : Int
  autoversionType : Int
  limebarState : Option Text

/-! ## The hooks -/

/-- `dav_limebits_patch_validate`. -/
def davLimebitsPatchValidate (server : Server) (target : Target)
    (op : PatchOp) : Option DavError :=
  match op.propid with
  | .domainMap =>
      if op.operation = .delete ∧ target.isUser = true then
        some ⟨AclStore.httpForbidden,
          "lb:domain_map can't be deleted on principals"⟩
      else none
  | .loginToAllDomains =>
      if op.operation = .delete ∧ target.isUser = true then
        some ⟨AclStore.httpForbidden,
          "lb:login-to-all-domains can't be deleted on principals"⟩
      else if target.mayReadPrivate = false then
        some ⟨server.permissionDeniedStatus,
          "lb:read-private-propertes privilege needed"⟩
      else none
  | .autoVersionNewChildren =>
      if target.collection = true ∧ op.operation = .delete then none
      else if target.collection = true then
        if firstChildName op.elem ∈
            ["checkout-checkin".toList, "version-control".toList] then none
        else if firstChildName op.elem ∈
            ["checkout-unlocked-checkin".toList, "checkout".toList,
              "locked-checkout".toList] then
          some ⟨AclStore.httpForbidden,
            String.ofList (firstChildName op.elem) ++
              " not supported currently"⟩
        else
          some ⟨400, "Undefined value for lb:auto-version-new-children"⟩
      else none
  | .limebarState =>
      if op.operation = .delete then
        some ⟨AclStore.httpForbidden, "lb:limebar-state can't be deleted"⟩
      else none
  | .autoVersion => none

/-- `dav_deltav_patch_validate`. -/
def davDeltavPatchValidate (target : Target) (op : PatchOp) :
    Option DavError :=
  if op.propid = .autoVersion then
    if target.versioned = true ∧ op.operation = .set then
      if firstChildName op.elem = "checkout-checkin".toList then none
      else if firstChildName op.elem ∈
          ["checkout-unlocked-checkin".toList, "checkout".toList,
            "locked-checkout".toList] then
        some ⟨AclStore.httpForbidden,
          String.ofList (firstChildName op.elem) ++ " supported currently"⟩
      else some ⟨400, "Undefined value given for DAV:auto-version "⟩
    else some ⟨AclStore.httpForbidden, "Not a set operation on a VCR"⟩
  else none

/-- The hook of the provider of the property. -/
def patchValidate (server : Server) (target : Target) (op : PatchOp) :
    Option DavError :=
  match op.propid with
  | .autoVersion => davDeltavPatchValidate target op
  | _ => davLimebitsPatchValidate server target op

/-- `lb_find_child`. -/
def lbFindChild (elem : AprXmlElem) (tagname : Text) : Option AprXmlElem :=
  elem.children.find? fun child => child.name == tagname

/-- One pass of the loop of `domain_map_elem_to_hash`. -/
def domainMapStep (server : Server) (domainMap : Option DomainMap)
    (iter : AprXmlElem) : Except Fault (Option DomainMap) := do
  let domain ← deref (lbFindChild iter "domain".toList)
  let domainstr := server.davXmlGetCdata domain
  if server.defnName <:+: domainstr then return domainMap
  let path ← deref (lbFindChild iter "path".toList)
  let pathstr := server.davXmlGetCdata path
  if "!lime".toList <:+: pathstr ∨ "..".toList <:+: pathstr then
    return domainMap
  return some ((domainMap.getD ∅).insert domainstr pathstr)

/-- `domain_map_elem_to_hash`. -/
def domainMapElemToHash (server : Server) (elem : AprXmlElem) :
    Except Fault (Option DomainMap) :=
  elem.children.foldlM (domainMapStep server) none

/-- `dbms_get_user_login_to_all_domains`. -/
def dbmsGetUserLoginToAllDomains (userRow : Option Bool) : Bool :=
  userRow.getD false

/-- `dbms_set_user_login_to_all_domains`, which is an UPDATE. -/
def dbmsSetUserLoginToAllDomains (userRow : Option Bool) (value : Bool) :
    Option Bool :=
  userRow.map fun _ => value

/-- What a rollback is given. -/
inductive RollbackData where
  | null
  | domainMap (domainMap : Option DomainMap)
  /-- `"t"` or `"f"`. -/
  | flag (value : Bool)
  | number (value : Int)

/-- `dav_liveprop_rollback`. -/
structure RollbackInfo where
  propid : Propid
  operation : PropOp
  data : RollbackData

/-- `strcmp(text, "true") == 0`. -/
def isTrue (text : Text) : Bool :=
  decide (text = "true".toList)

/-- The value of `autoversion_type` after a SET. -/
def autoversionAfter (autoversionType : Int) (op : PatchOp) : Int :=
  if firstChildName op.elem = "version-control".toList then autoversionType
  else (avType (firstChildName op.elem)).getD autoversionType

/-- The value of `av_new_children` after an operation. -/
def avAfter (avNewChildren : Int) (op : PatchOp) : Int :=
  match op.operation with
  | .delete => davAvNone
  | .set => (avType (firstChildName op.elem)).getD avNewChildren

/-- `dav_limebits_patch_exec` and `dav_deltav_patch_exec`. -/
def patchExec (server : Server) (target : Target) (state : State)
    (op : PatchOp) : Except Fault (State × RollbackInfo × Option DavError) :=
  let info (data : RollbackData) : RollbackInfo :=
    { propid := op.propid, operation := op.operation, data := data }
  match op.propid with
  | .domainMap =>
      let current := info (.domainMap
        (dbmsGetDomainMap server.rowOrder state.domains target.serialno))
      match op.operation with
      | .set => do
          let newDomainMap ← domainMapElemToHash server op.elem
          let result := dbmsSetDomainMap (fun _ => false) server.order
            state.domains target.serialno newDomainMap
          return ({ state with domains := result.1 }, current, result.2)
      | .delete => return (state, current, none)
  | .loginToAllDomains =>
      let curVal := dbmsGetUserLoginToAllDomains state.userRow
      let newVal := isTrue (server.innerText op.elem)
      if op.operation = .set ∧ newVal ≠ curVal then
        return ({ state with userRow :=
          dbmsSetUserLoginToAllDomains state.userRow newVal },
          info (.flag curVal), none)
      else return (state, info .null, none)
  | .autoVersionNewChildren =>
      return ({ state with avNewChildren := avAfter state.avNewChildren op },
        info (.number state.autoversionType), none)
  | .limebarState =>
      match op.operation with
      | .set =>
          let limebarState := some (server.innerText op.elem)
          return ({ state with
            limebarState := limebarState, limebarRow := limebarState },
            info .null, none)
      | .delete => return (state, info .null, none)
  | .autoVersion =>
      if target.versioned = true ∧ op.operation = .set then do
        let _child ← deref op.elem.children.head?
        return ({ state with
          autoversionType := autoversionAfter state.autoversionType op },
          info (.number state.autoversionType), none)
      else return (state, info .null, none)

/-- `dav_limebits_patch_commit` and `dav_deltav_patch_commit`. -/
def patchCommit (target : Target) (state : State) (info : RollbackInfo) :
    State :=
  match info.propid, info.operation, info.data with
  | .autoVersionNewChildren, .set, .number avType =>
      if target.collection = true ∧ state.avNewChildren ≠ avType then
        { state with collectionRow :=
          state.collectionRow.map fun _ => state.avNewChildren }
      else state
  | .autoVersion, .set, .number avType =>
      if target.versioned = true ∧ state.autoversionType ≠ avType then
        { state with vcrRow :=
          state.vcrRow.map fun _ => state.autoversionType }
      else state
  | _, _, _ => state

/-- `dav_limebits_patch_rollback` and `dav_deltav_patch_rollback`. -/
def patchRollback (server : Server) (target : Target) (state : State)
    (info : RollbackInfo) : State :=
  match info.propid, info.operation, info.data with
  | .domainMap, _, .domainMap domainMap =>
      { state with domains :=
        (dbmsSetDomainMap (fun _ => false) server.order state.domains
          target.serialno domainMap).1 }
  | .loginToAllDomains, _, .flag value =>
      { state with userRow :=
        dbmsSetUserLoginToAllDomains state.userRow value }
  | .autoVersion, .set, .number avType =>
      if target.versioned = true then
        { state with autoversionType := avType }
      else state
  | _, _, _ => state

/-! ## Requests -/

/-- The exec hooks in order: the contexts and the errors that they leave. -/
def execAll (server : Server) (target : Target) :
    State → List PatchOp →
      Except Fault (State × List RollbackInfo × List DavError)
  | state, [] => return (state, [], [])
  | state, op :: ops => do
      let (next, info, err) ← patchExec server target state op
      let (final, infos, errs) ← execAll server target next ops
      return (final, info :: infos, err.toList ++ errs)

/-- The commit hooks in order. -/
def commitAll (target : Target) (state : State) (infos : List RollbackInfo) :
    State :=
  infos.foldl (patchCommit target) state

/-- The rollback hooks in the reverse order. -/
def rollbackAll (server : Server) (target : Target) (state : State)
    (infos : List RollbackInfo) : State :=
  Rollback.rollBack (patchRollback server target) state infos

/-- The last operation on a property. -/
def lastOp (propid : Propid) (ops : List PatchOp) : Option PatchOp :=
  Rollback.last (fun op => op.propid == propid) ops

/-- The map of the resource, as its domains with their paths. -/
def storedMap (server : Server) (target : Target) (domains : DomainTable) :
    Option (Text → Option Text) :=
  (dbmsGetDomainMap server.rowOrder domains target.serialno).map DomainMap.path

/-- The column holds what an operation with the number of a value stores. -/
def HoldsNumber (column : Option Int) (op : PatchOp) : Prop :=
  match op.operation with
  | .set => ∃ number, avType (firstChildName op.elem) = some number ∧
      column = some number
  | .delete => ∀ number ∈ avTypes.map Prod.snd, column ≠ some number

/-- The property is stored with the value of the operation. -/
def HoldsValue (server : Server) (target : Target) (state : State)
    (op : PatchOp) : Prop :=
  match op.propid, op.operation with
  | .domainMap, .set => ∀ domainMap,
      domainMapElemToHash server op.elem = .ok domainMap →
        storedMap server target state.domains = domainMap.map DomainMap.path
  | .domainMap, .delete => storedMap server target state.domains = none
  | .loginToAllDomains, .set =>
      dbmsGetUserLoginToAllDomains state.userRow =
        isTrue (server.innerText op.elem)
  | .loginToAllDomains, .delete =>
      dbmsGetUserLoginToAllDomains state.userRow = false
  | .autoVersionNewChildren, _ => HoldsNumber state.collectionRow op
  | .limebarState, .set =>
      state.limebarRow = some (server.innerText op.elem)
  | .limebarState, .delete => state.limebarRow = none
  | .autoVersion, _ => HoldsNumber state.vcrRow op

/-- The property is stored as before. -/
def SameProperty (server : Server) (target : Target) (before after : State) :
    Propid → Prop
  | .domainMap => storedMap server target after.domains =
      storedMap server target before.domains
  | .loginToAllDomains => after.userRow = before.userRow
  | .autoVersionNewChildren => after.collectionRow = before.collectionRow
  | .limebarState => after.limebarRow = before.limebarRow
  | .autoVersion => after.vcrRow = before.vcrRow

/-- What a request begins with. -/
structure State.Stored (state : State) (target : Target) : Prop where
  user : state.userRow.isSome = target.isUser
  /-- The field has been read from the row. -/
  vcr : target.versioned = true → state.vcrRow = some state.autoversionType
  principal : ∀ row ∈ state.domains.rows,
    row.principalId ∈ state.domains.principals
  lengths : ∀ row ∈ state.domains.rows,
    row.domain.length ≤ 255 ∧ row.path.length ≤ 255

/-- A sequence of operations that the hooks accept for a stored resource. -/
structure PatchInput where
  server : Server
  target : Target
  state : State
  ops : List PatchOp
  accepted : ∀ op ∈ ops, patchValidate server target op = none
  stored : state.Stored target

/-- The property is stored with the value of its last operation, if any. -/
def PatchInput.StoresLast (input : PatchInput) (after : State)
    (propid : Propid) : Prop :=
  match lastOp propid input.ops with
  | some op => HoldsValue input.server input.target after op
  | none => SameProperty input.server input.target input.state after propid

/--
The commit stores the last value of each property, if no hook reported an
error, and the rollback restores all of them.
-/
def PatchInput.PatchesAsAWhole (input : PatchInput) : Prop :=
  ∃ final infos errs,
    execAll input.server input.target input.state input.ops =
      .ok (final, infos, errs) ∧
    (errs = [] → ∀ propid,
      input.StoresLast (commitAll input.target final infos) propid) ∧
    ∀ propid, SameProperty input.server input.target input.state
      (rollbackAll input.server input.target final infos) propid

/-! ## What the exec hooks do -/

/-- The map that a SET of the domain map writes. -/
def newDomainMap (server : Server) (op : PatchOp) : Option DomainMap :=
  match domainMapElemToHash server op.elem with
  | .ok domainMap => domainMap
  | .error _ => none

/-- The call of `dbms_set_domain_map` for a SET. -/
def setDomains (server : Server) (target : Target) (state : State)
    (op : PatchOp) : DomainTable × Option DavError :=
  dbmsSetDomainMap (fun _ => false) server.order state.domains
    target.serialno (newDomainMap server op)

/-- The state after an accepted operation, field by field. -/
def stateAfter (server : Server) (target : Target) (state : State)
    (op : PatchOp) : State where
  collectionRow := state.collectionRow
  domains :=
    if op.Sets .domainMap then (setDomains server target state op).1
    else state.domains
  userRow :=
    if op.Sets .loginToAllDomains then
      dbmsSetUserLoginToAllDomains state.userRow
        (isTrue (server.innerText op.elem))
    else state.userRow
  limebarRow :=
    if op.Sets .limebarState then some (server.innerText op.elem)
    else state.limebarRow
  vcrRow := state.vcrRow
  avNewChildren :=
    if op.propid = .autoVersionNewChildren then avAfter state.avNewChildren op
    else state.avNewChildren
  autoversionType :=
    if op.Sets .autoVersion then davAvCheckoutCheckin
    else state.autoversionType
  limebarState :=
    if op.Sets .limebarState then some (server.innerText op.elem)
    else state.limebarState

/-- What the hook keeps for the rollback. -/
def dataOf (server : Server) (target : Target) (state : State)
    (op : PatchOp) : RollbackData :=
  match op.propid, op.operation with
  | .domainMap, _ => .domainMap
      (dbmsGetDomainMap server.rowOrder state.domains target.serialno)
  | .loginToAllDomains, .set =>
      if isTrue (server.innerText op.elem) =
          dbmsGetUserLoginToAllDomains state.userRow then .null
      else .flag (dbmsGetUserLoginToAllDomains state.userRow)
  | .autoVersionNewChildren, _ => .number state.autoversionType
  | .autoVersion, .set => .number state.autoversionType
  | _, _ => .null

def contextOf (server : Server) (target : Target) (state : State)
    (op : PatchOp) : RollbackInfo where
  propid := op.propid
  operation := op.operation
  data := dataOf server target state op

def errorOf (server : Server) (target : Target) (state : State)
    (op : PatchOp) : Option DavError :=
  if op.Sets .domainMap then (setDomains server target state op).2 else none

/-- The entries of a map that is set have domains and paths. -/
def Converts (server : Server) (op : PatchOp) : Prop :=
  op.Sets .domainMap →
    ∃ domainMap, domainMapElemToHash server op.elem = .ok domainMap

section Hooks

variable {server : Server} {target : Target} {state : State} {op : PatchOp}
  {ops : List PatchOp}

/-- What is accepted of `DAV:auto-version`. -/
theorem autoVersion_of_accepted
    (accepted : patchValidate server target op = none)
    (here : op.propid = .autoVersion) :
    target.versioned = true ∧ op.operation = .set ∧
      firstChildName op.elem = "checkout-checkin".toList := by
  simp only [patchValidate, here, davDeltavPatchValidate, if_true]
    at accepted
  split at accepted
  case isTrue set =>
    split at accepted
    case isTrue named => exact ⟨set.1, set.2, named⟩
    case isFalse =>
      split at accepted
      · cases accepted
      · cases accepted
  case isFalse => cases accepted

theorem head_of_firstChildName
    {elem : AprXmlElem}
    (named : firstChildName elem = "checkout-checkin".toList) :
    ∃ child, elem.children.head? = some child := by
  rw [firstChildName] at named
  cases children : elem.children with
  | nil =>
      rw [children] at named
      cases named
  | cons child rest => exact ⟨child, rfl⟩

/-- The flag is written if it changes, and the row is the same if not. -/
theorem dbmsSetUserLoginToAllDomains_same
    {userRow : Option Bool} :
    dbmsSetUserLoginToAllDomains userRow
      (dbmsGetUserLoginToAllDomains userRow) = userRow := by
  cases userRow with
  | none => rfl
  | some value => rfl

/-- One accepted operation. -/
theorem patchExec_eq
    (accepted : patchValidate server target op = none)
    (converts : Converts server op)
    (state : State) :
    patchExec server target state op =
      .ok (stateAfter server target state op,
        contextOf server target state op,
        errorOf server target state op) := by
  rcases op with ⟨propid, operation, elem⟩
  cases propid with
  | domainMap =>
      cases operation with
      | set =>
          rcases converts ⟨rfl, rfl⟩ with ⟨domainMap, converted⟩
          have new : newDomainMap server ⟨.domainMap, .set, elem⟩ =
              domainMap := by
            simp only [newDomainMap, converted]
          simp [patchExec, stateAfter, contextOf, dataOf, errorOf,
            PatchOp.Sets, setDomains, new, converted]
      | delete => rfl
  | loginToAllDomains =>
      cases operation with
      | set =>
          by_cases same : isTrue (server.innerText elem) =
              dbmsGetUserLoginToAllDomains state.userRow
          · simp [patchExec, stateAfter, contextOf, dataOf, errorOf,
              PatchOp.Sets, same, dbmsSetUserLoginToAllDomains_same]
            rfl
          · simp [patchExec, stateAfter, contextOf, dataOf, errorOf,
              PatchOp.Sets, same]
            rfl
      | delete => rfl
  | autoVersionNewChildren => rfl
  | limebarState =>
      cases operation with
      | set => rfl
      | delete => rfl
  | autoVersion =>
      rcases autoVersion_of_accepted accepted rfl with
        ⟨versioned, rfl, named⟩
      rcases head_of_firstChildName named with ⟨child, first⟩
      have value : autoversionAfter state.autoversionType
          ⟨.autoVersion, .set, elem⟩ = davAvCheckoutCheckin := by
        simp only [autoversionAfter, named]
        rfl
      simp [patchExec, stateAfter, contextOf, dataOf, errorOf,
        PatchOp.Sets, versioned, first, deref, value]

/-- What the operations of a run keep for the rollback. -/
def contextsOf (server : Server) (target : Target) (state : State)
    (ops : List PatchOp) : List RollbackInfo :=
  Rollback.contexts (stateAfter server target) (contextOf server target)
    state ops

def errorsOf (server : Server) (target : Target) (state : State)
    (ops : List PatchOp) : List DavError :=
  (Rollback.contexts (stateAfter server target) (errorOf server target)
    state ops).flatMap Option.toList

/-- A run of accepted operations. -/
theorem execAll_eq
    (accepted : ∀ op ∈ ops, patchValidate server target op = none)
    (converts : ∀ op ∈ ops, Converts server op)
    (state : State) :
    execAll server target state ops =
      .ok (ops.foldl (stateAfter server target) state,
        contextsOf server target state ops,
        errorsOf server target state ops) := by
  induction ops generalizing state with
  | nil => rfl
  | cons op ops induction =>
      rw [List.forall_mem_cons] at accepted converts
      rw [execAll, patchExec_eq accepted.1 converts.1]
      simp only [bind, Except.bind, induction accepted.2 converts.2]
      rfl

/-- A null pointer ends the run, so a run that ends otherwise converts. -/
theorem converts_of_execAll
    {result : State × List RollbackInfo × List DavError}
    (done : execAll server target state ops = .ok result) :
    ∀ op ∈ ops, Converts server op := by
  induction ops generalizing state result with
  | nil => exact fun op member => (List.not_mem_nil member).elim
  | cons op ops induction =>
      rw [execAll] at done
      cases here : patchExec server target state op with
      | error fault =>
          rw [here] at done
          cases done
      | ok step =>
          rw [here] at done
          simp only [bind, Except.bind] at done
          rw [List.forall_mem_cons]
          constructor
          · intro sets
            cases converted : domainMapElemToHash server op.elem with
            | ok domainMap => exact ⟨domainMap, rfl⟩
            | error fault =>
                simp only [patchExec, sets.1, sets.2, converted] at here
                cases here
          · cases rest : execAll server target step.1 ops with
            | error fault =>
                rw [rest] at done
                cases done
            | ok later => exact induction rest

/-- No hook reports an error iff none of the maps is refused. -/
theorem errorsOf_eq_nil_iff :
    errorsOf server target state ops = [] ↔
      ∀ before op behind, ops = before ++ op :: behind →
        errorOf server target (before.foldl (stateAfter server target) state)
          op = none := by
  rw [errorsOf, List.flatMap_eq_nil_iff]
  constructor
  · rintro none_ before op behind rfl
    have member := none_ _ (Rollback.mem_contexts.mpr
      ⟨before, op, behind, rfl, rfl⟩)
    exact Option.toList_eq_nil_iff.mp member
  · intro none_ err member
    rcases Rollback.mem_contexts.mp member with
      ⟨before, op, behind, split, rfl⟩
    exact Option.toList_eq_nil_iff.mpr (none_ before op behind split)

end Hooks

/-! ## Domain maps -/

section Maps

variable {order : HashOrder} {server : Server} {target : Target}
  {table : DomainTable} {principalId : Id} {domainMap : DomainMap}

/-- A map that an element is converted to has an entry. -/
theorem filled_of_domainMapElemToHash
    {elem : AprXmlElem}
    (converted : domainMapElemToHash server elem = .ok (some domainMap)) :
    domainMap.entries ≠ [] := by
  have pass : ∀ (elems : List AprXmlElem) (start : Option DomainMap),
      (∀ map, start = some map → map.entries ≠ []) →
      ∀ found, elems.foldlM (domainMapStep server) start =
        .ok (some found) → found.entries ≠ [] := by
    intro elems
    induction elems with
    | nil =>
        intro start filled found done
        exact filled found (Except.ok.inj done)
    | cons iter elems induction =>
        intro start filled found done
        rw [List.foldlM_cons] at done
        cases next : domainMapStep server start iter with
        | error fault =>
            rw [next] at done
            cases done
        | ok reached =>
            rw [next] at done
            refine induction reached ?_ found done
            rintro map rfl
            simp only [domainMapStep, bind, Except.bind, pure, Except.pure]
              at next
            split at next
            · cases next
            split at next
            · exact filled map (Except.ok.inj next)
            split at next
            · cases next
            split at next
            · exact filled map (Except.ok.inj next)
            · rcases Option.some.inj (Except.ok.inj next) with rfl
              rw [AList.entries_insert]
              exact List.cons_ne_nil _ _
  exact pass elem.children none (fun _ never => (by cases never)) domainMap
    converted

theorem principals_insert
    {rows : List UserDomain} {after : DomainTable}
    (inserted : table.insert rows = some after) :
    after.principals = table.principals := by
  rw [DomainTable.insert] at inserted
  split at inserted
  · rcases Option.some.inj inserted with rfl
    rfl
  · cases inserted

/-- The principals are in another table. -/
theorem principals_dbmsSetDomainMap
    {fails : Statement → Bool} {map : Option DomainMap} :
    (dbmsSetDomainMap fails order table principalId map).1.principals =
      table.principals := by
  rw [dbmsSetDomainMap]
  split
  · rfl
  cases map with
  | none => rfl
  | some domainMap =>
      dsimp only
      split
      · rfl
      · split
        · rfl
        · rename_i executed
          split at executed
          · cases executed
          · rw [executeText, Option.bind_eq_some_iff] at executed
            rcases executed with ⟨statement, -, executed⟩
            split at executed
            · rw [Option.bind_eq_some_iff] at executed
              rcases executed with ⟨rows, -, inserted⟩
              exact (principals_insert inserted).trans rfl
            · cases executed

/-- What is stored by a call that no statement of fails. -/
abbrev mapAfter (server : Server) (target : Target) (table : DomainTable)
    (map : Option DomainMap) : Option (Text → Option Text) :=
  storedMap server target
    (dbmsSetDomainMap (fun _ => false) server.order table target.serialno
      map).1

theorem mapAfter_none : mapAfter server target table none = none := by
  have done : dbmsSetDomainMap (fun _ => false) server.order table
      target.serialno none = (table.delete target.serialno, none) := by
    rw [dbmsSetDomainMap, if_neg Bool.false_ne_true]
  rw [mapAfter, done, storedMap, dbmsGetDomainMap_delete, Option.map_none]

theorem mapAfter_of_marked
    (filled : domainMap.entries ≠ [])
    (marked : IsMarked domainMap) :
    mapAfter server target table (some domainMap) = none := by
  rw [mapAfter, dbmsSetDomainMap_of_marked rfl filled marked, storedMap,
    dbmsGetDomainMap_delete, Option.map_none]

/-- Nothing of the map is lost when it is stored. -/
def Whole (domainMap : DomainMap) : Prop :=
  ¬ IsMarked domainMap ∧ ∀ entry ∈ domainMap.entries,
    ¬ IsCut 255 entry.1 ∧ ¬ IsCut 255 entry.2

/-- A map that is neither marked nor refused. -/
theorem dbmsSetDomainMap_of_accepted
    (filled : domainMap.entries ≠ [])
    (unmarked : ¬ IsMarked domainMap)
    (accepted : Accepted table principalId domainMap) :
    ∃ after, dbmsSetDomainMap (fun _ => false) order table principalId
        (some domainMap) = (after, none) ∧
      after.rows = (table.delete principalId).rows ++
        keptRows order principalId domainMap := by
  rcases @executeText_of_accepted order table principalId domainMap
    filled accepted with ⟨after, executed, added⟩
  refine ⟨after, ?_, added⟩
  rw [dbmsSetDomainMap_of_unmarked rfl filled unmarked,
    if_neg Bool.false_ne_true, executed]

theorem mapAfter_of_accepted
    (filled : domainMap.entries ≠ [])
    (unmarked : ¬ IsMarked domainMap)
    (accepted : Accepted table target.serialno domainMap) :
    ∃ path, mapAfter server target table (some domainMap) = some path ∧
      (path = domainMap.path ↔ ∀ entry ∈ domainMap.entries,
        ¬ IsCut 255 entry.1 ∧ ¬ IsCut 255 entry.2) := by
  rcases @dbmsSetDomainMap_of_accepted server.order table target.serialno
    domainMap filled unmarked accepted with ⟨after, done, added⟩
  rcases @dbmsGetDomainMap_of_keptRows server.order server.rowOrder table
    target.serialno domainMap after filled added with ⟨returned, read, paths⟩
  refine ⟨returned.path, ?_, path_eq_iff accepted paths⟩
  rw [mapAfter, done, storedMap, read, Option.map_some]

/-- An accepted or a marked map is stored as it is iff nothing is lost. -/
theorem mapAfter_eq_iff
    (filled : domainMap.entries ≠ [])
    (taken : IsMarked domainMap ∨ Accepted table target.serialno domainMap) :
    mapAfter server target table (some domainMap) = some domainMap.path ↔
      Whole domainMap := by
  by_cases marked : IsMarked domainMap
  · rw [mapAfter_of_marked filled marked, Whole]
    exact ⟨fun never => (by cases never), fun whole => (whole.1 marked).elim⟩
  · rcases @mapAfter_of_accepted server target table domainMap filled marked
      (taken.resolve_left marked) with ⟨path, stored, same⟩
    rw [stored, Option.some_inj, same, Whole, and_iff_right marked]

theorem mapAfter_eq_none_iff
    (filled : domainMap.entries ≠ [])
    (taken : IsMarked domainMap ∨ Accepted table target.serialno domainMap) :
    mapAfter server target table (some domainMap) = none ↔
      IsMarked domainMap := by
  by_cases marked : IsMarked domainMap
  · exact ⟨fun _ => marked, fun _ => mapAfter_of_marked filled marked⟩
  · rcases @mapAfter_of_accepted server target table domainMap filled marked
      (taken.resolve_left marked) with ⟨path, stored, -⟩
    rw [stored]
    exact ⟨fun never => (by cases never), fun here => (marked here).elim⟩

/-- The call succeeds iff the map is marked or accepted. -/
theorem dbmsSetDomainMap_eq_none_iff
    (filled : domainMap.entries ≠ []) :
    (dbmsSetDomainMap (fun _ => false) order table principalId
        (some domainMap)).2 = none ↔
      IsMarked domainMap ∨ Accepted table principalId domainMap := by
  by_cases marked : IsMarked domainMap
  · rw [dbmsSetDomainMap_of_marked rfl filled marked]
    exact ⟨fun _ => Or.inl marked, fun _ => rfl⟩
  by_cases accepted : Accepted table principalId domainMap
  · rcases @dbmsSetDomainMap_of_accepted order table principalId domainMap
      filled marked accepted with ⟨after, done, -⟩
    rw [done]
    exact ⟨fun _ => Or.inr accepted, fun _ => rfl⟩
  · have refused := @dbmsSetDomainMap_of_refused order (fun _ => false) table
      principalId domainMap rfl filled marked (Or.inr accepted)
    exact ⟨fun done => (refused done).elim,
      fun taken => (taken.elim marked accepted).elim⟩

/-- What the table accepts depends on its principals only. -/
theorem accepted_of_principals
    {other : DomainTable}
    (same : other.principals = table.principals)
    (accepted : Accepted table principalId domainMap) :
    Accepted other principalId domainMap where
  principal := by
    rw [same]
    exact accepted.principal
  fits := accepted.fits
  distinct := accepted.distinct

theorem kept_of_short
    {text : Text}
    (short : text.length ≤ 255) :
    varchar 255 text = some text :=
  if_pos short

/-- What is read of a stored table is taken again. -/
theorem accepted_of_stored
    {state : State}
    (stored : state.Stored target)
    (found : dbmsGetDomainMap server.rowOrder state.domains target.serialno =
      some domainMap) :
    domainMap.entries ≠ [] ∧
      Accepted state.domains target.serialno domainMap ∧
      ∀ entry ∈ domainMap.entries,
        ¬ IsCut 255 entry.1 ∧ ¬ IsCut 255 entry.2 := by
  have owned : ∃ row ∈ state.domains.rows,
      row.principalId = target.serialno := by
    by_contra unowned
    push Not at unowned
    rw [dbmsGetDomainMap_of_no_rows unowned] at found
    cases found
  rcases owned with ⟨row, member, own⟩
  rcases @dbmsGetDomainMap_of_rows server.rowOrder state.domains
    target.serialno row member own with ⟨returned, read, paths⟩
  rw [found] at read
  rcases Option.some.inj read with rfl
  have rows : ∀ entry, entry ∈ domainMap.entries ↔
      ⟨target.serialno, entry.1, entry.2⟩ ∈ state.domains.rows := by
    intro entry
    rw [← paths, path_eq_some]
  have short : ∀ entry ∈ domainMap.entries,
      entry.1.length ≤ 255 ∧ entry.2.length ≤ 255 := fun entry inMap =>
    stored.lengths _ ((rows entry).mp inMap)
  refine ⟨?_, ⟨?_, ?_, ?_⟩, ?_⟩
  · have inMap := (rows ⟨row.domain, row.path⟩).mpr (by
      rw [← own]
      exact member)
    exact List.ne_nil_of_mem inMap
  · rw [← own]
    exact stored.principal row member
  · intro entry inMap
    rw [kept_of_short (short entry inMap).1, kept_of_short (short entry inMap).2]
    exact ⟨rfl, rfl⟩
  · have same : (domainMap.entries.map fun entry => kept entry.1) =
        domainMap.keys := by
      apply List.map_congr_left
      intro entry inMap
      rw [kept, kept_of_short (short entry inMap).1, Option.getD_some]
    rw [same]
    exact domainMap.keys_nodup
  · intro entry inMap
    exact ⟨fun cut => absurd cut.1 (by have := (short entry inMap).1; omega),
      fun cut => absurd cut.1 (by have := (short entry inMap).2; omega)⟩

end Maps

/-! ## Commits -/

section Commits

variable {server : Server} {target : Target} {state : State} {op : PatchOp}
  {ops : List PatchOp} {infos : List RollbackInfo}

/-- The commit of a property with a number writes its row. -/
def commitsNumber (propid : Propid) (applies : Bool) (number : Int)
    (info : RollbackInfo) : Bool :=
  match info.data with
  | .number avType =>
      info.propid == propid && info.operation == .set && applies &&
        number != avType
  | _ => false

/-- The commit writes the row of the collection. -/
def commitsCollection (target : Target) (avNewChildren : Int) :
    RollbackInfo → Bool :=
  commitsNumber .autoVersionNewChildren target.collection avNewChildren

/-- The commit writes the row of the version-controlled resource. -/
def commitsVcr (target : Target) (autoversionType : Int) :
    RollbackInfo → Bool :=
  commitsNumber .autoVersion target.versioned autoversionType

/-- A commit writes iff a SET saved another number. -/
theorem commitsNumber_contextOf
    {propid : Propid} {applies : Bool} {number : Int}
    (numbered : propid = .autoVersionNewChildren ∨ propid = .autoVersion) :
    commitsNumber propid applies number (contextOf server target state op) =
        true ↔
      applies = true ∧ op.Sets propid ∧ number ≠ state.autoversionType := by
  rcases op with ⟨here, operation, elem⟩
  by_cases sets : here = propid ∧ operation = .set
  · rcases sets with ⟨rfl, rfl⟩
    have data : dataOf server target state ⟨here, .set, elem⟩ =
        .number state.autoversionType := by
      rcases numbered with rfl | rfl
      · rfl
      · rfl
    simp [commitsNumber, contextOf, data, PatchOp.Sets]
  · have other : ¬ PatchOp.Sets ⟨here, operation, elem⟩ propid := sets
    simp only [other, false_and, and_false, iff_false, commitsNumber]
    intro writes
    split at writes
    · simp only [contextOf, Bool.and_eq_true, beq_iff_eq] at writes
      exact sets writes.1.1
    · cases writes

/-- A row with a number that is written or not. -/
def written (writes : Bool) (number : Int) (row : Option Int) : Option Int :=
  if writes then row.map fun _ => number else row

theorem written_written
    {first second : Bool} {number : Int} {row : Option Int} :
    written second number (written first number row) =
      written (first || second) number row := by
  cases row with
  | none =>
      cases first with
      | false => rfl
      | true =>
          cases second with
          | false => rfl
          | true => rfl
  | some value =>
      cases first with
      | false => rfl
      | true =>
          cases second with
          | false => rfl
          | true => rfl

/-- A commit writes two rows and nothing else. -/
theorem patchCommit_eq (info : RollbackInfo) :
    patchCommit target state info =
      { state with
        collectionRow :=
          written (commitsCollection target state.avNewChildren info)
            state.avNewChildren state.collectionRow
        vcrRow :=
          written (commitsVcr target state.autoversionType info)
            state.autoversionType state.vcrRow } := by
  rcases info with ⟨propid, operation, data⟩
  unfold patchCommit commitsCollection commitsVcr commitsNumber written
  cases propid <;> cases operation <;> cases data <;> simp
  · split
    · rfl
    · rfl
  · split
    · rfl
    · rfl

theorem commitAll_eq :
    commitAll target state infos =
      { state with
        collectionRow :=
          written (infos.any (commitsCollection target state.avNewChildren))
            state.avNewChildren state.collectionRow
        vcrRow :=
          written (infos.any (commitsVcr target state.autoversionType))
            state.autoversionType state.vcrRow } := by
  induction infos generalizing state with
  | nil => rfl
  | cons info infos induction =>
      rw [commitAll, List.foldl_cons]
      refine induction.trans ?_
      rw [patchCommit_eq]
      simp only [written_written, List.any_cons]

/-- The number that the property has after an operation on it. -/
def numberOf (op : PatchOp) : Option Int :=
  match op.operation with
  | .set => avType (firstChildName op.elem)
  | .delete => some davAvNone

theorem avAfter_of_numberOf
    {number previous : Int}
    (known : numberOf op = some number) :
    avAfter previous op = number := by
  rw [numberOf] at known
  rw [avAfter]
  cases operation : op.operation with
  | set =>
      rw [operation] at known
      simp only [known, Option.getD_some]
  | delete =>
      rw [operation] at known
      exact Option.some.inj known

/-- `DAV_AV_NONE` is the number of no value. -/
theorem davAvNone_notMem :
    ∀ number ∈ avTypes.map Prod.snd, some davAvNone ≠ some number := by
  decide

theorem holdsNumber_of_numberOf
    {number : Int}
    (known : numberOf op = some number) :
    HoldsNumber (some number) op := by
  rw [numberOf] at known
  rw [HoldsNumber]
  cases operation : op.operation with
  | set =>
      rw [operation] at known
      exact ⟨number, known, rfl⟩
  | delete =>
      rw [operation] at known
      rcases Option.some.inj known with rfl
      exact davAvNone_notMem

/-- The values that are accepted for a collection have numbers. -/
theorem numberOf_of_accepted
    (accepted : patchValidate server target op = none)
    (here : op.propid = .autoVersionNewChildren)
    (collection : target.collection = true) :
    ∃ number, numberOf op = some number := by
  rw [numberOf]
  cases operation : op.operation with
  | delete => exact ⟨davAvNone, rfl⟩
  | set =>
      simp only [patchValidate, here, davLimebitsPatchValidate, operation,
        collection] at accepted
      split at accepted
      case isTrue deleted => cases deleted.2
      case isFalse =>
        rw [if_pos trivial] at accepted
        split at accepted
        case isTrue named =>
          rcases List.mem_cons.mp named with first | rest
          · rw [first]
            exact ⟨davAvCheckoutCheckin, rfl⟩
          · rw [List.mem_singleton.mp rest]
            exact ⟨6, rfl⟩
        case isFalse =>
          split at accepted
          · cases accepted
          · cases accepted

/-- The number that is saved by the hooks after some operations. -/
def savedType (state : State) (before : List PatchOp) : Int :=
  if ∃ earlier ∈ before, earlier.Sets .autoVersion then davAvCheckoutCheckin
  else state.autoversionType

theorem autoversionType_foldl :
    (ops.foldl (stateAfter server target) state).autoversionType =
      savedType state ops := by
  rw [savedType]
  induction ops using List.reverseRecOn with
  | nil => simp
  | append_singleton ops final induction =>
      rw [List.foldl_append, List.foldl_cons, List.foldl_nil, stateAfter]
      dsimp only
      rw [induction]
      by_cases here : final.Sets .autoVersion
      · rw [if_pos here, if_pos ⟨final,
          List.mem_append_right _ List.mem_cons_self, here⟩]
      · simp [here]

end Commits

/-! ## When the hooks work -/

namespace PatchInput

variable (input : PatchInput)

/-- No domain map is refused by the database. -/
def Unrefused : Prop :=
  ∀ op ∈ input.ops, op.Sets .domainMap → ∀ domainMap,
    domainMapElemToHash input.server op.elem = .ok (some domainMap) →
      IsMarked domainMap ∨
        Accepted input.state.domains input.target.serialno domainMap

/-- A SET for a collection saved another number than the last operation's. -/
def Rewrites (op : PatchOp) : Prop :=
  input.target.collection = true ∧ input.state.collectionRow.isSome ∧
    ∃ before earlier behind, input.ops = before ++ earlier :: behind ∧
      earlier.Sets .autoVersionNewChildren ∧
      numberOf op ≠ some (savedType input.state before)

/--
The map of a last SET is stored whole; before a last DELETE no map was stored
or it was lost.
-/
def KeepsMap (op : PatchOp) : Prop :=
  match op.operation with
  | .set => ∀ domainMap,
      domainMapElemToHash input.server op.elem = .ok (some domainMap) →
        Whole domainMap
  | .delete =>
      match Rollback.last (fun op => op.Sets .domainMap) input.ops with
      | none =>
          storedMap input.server input.target input.state.domains = none
      | some earlier => ∀ domainMap,
          domainMapElemToHash input.server earlier.elem =
            .ok (some domainMap) → IsMarked domainMap

/-- The inputs that the hooks handle as a whole. -/
structure Handled : Prop where
  converts : ∀ op ∈ input.ops, Converts input.server op
  newChildren : input.Unrefused → ∀ op,
    lastOp .autoVersionNewChildren input.ops = some op →
      HoldsNumber input.state.collectionRow op ∨ input.Rewrites op
  domainMap : input.Unrefused → ∀ op,
    lastOp .domainMap input.ops = some op → input.KeepsMap op
  login : input.Unrefused → ∀ op,
    lastOp .loginToAllDomains input.ops = some op → op.operation = .set →
      isTrue (input.server.innerText op.elem) = true →
        input.target.isUser = true
  /-- The rollback leaves the state of the limebar. -/
  limebar : ∀ op, lastOp .limebarState input.ops = some op →
    input.state.limebarRow = some (input.server.innerText op.elem)
  /-- The map that the rollback writes is not lost. -/
  storedMap : ∀ op, lastOp .domainMap input.ops = some op → ∀ domainMap,
    dbmsGetDomainMap input.server.rowOrder input.state.domains
      input.target.serialno = some domainMap → ¬ IsMarked domainMap

/-- The state after the exec hooks. -/
def executed : State :=
  input.ops.foldl (stateAfter input.server input.target) input.state

/-- The contexts that the exec hooks leave. -/
def infos : List RollbackInfo :=
  contextsOf input.server input.target input.state input.ops

/-- The state after the commit hooks. -/
def committed : State :=
  commitAll input.target input.executed input.infos

/-- The state after the rollback hooks. -/
def rolledBack : State :=
  rollbackAll input.server input.target input.executed input.infos

variable {input} {op : PatchOp}

/-! ### The principals -/

theorem principals_foldl
    (server : Server) (target : Target) (ops : List PatchOp)
    (state : State) :
    (ops.foldl (stateAfter server target) state).domains.principals =
      state.domains.principals := by
  apply @Rollback.foldl_of_idle _ _ _ _ fun state : State =>
    state.domains.principals
  intro op member state
  rw [stateAfter]
  dsimp only
  split
  · exact principals_dbmsSetDomainMap
  · rfl

/-- Whether a map is taken is known from the stored state. -/
theorem taken_iff
    {table : DomainTable} {domainMap : DomainMap}
    (same : table.principals = input.state.domains.principals) :
    IsMarked domainMap ∨
        Accepted table input.target.serialno domainMap ↔
      IsMarked domainMap ∨
        Accepted input.state.domains input.target.serialno domainMap :=
  or_congr_right
    ⟨accepted_of_principals same.symm, accepted_of_principals same⟩

theorem errorsOf_eq_nil_iff_unrefused
    (converts : ∀ op ∈ input.ops, Converts input.server op) :
    errorsOf input.server input.target input.state input.ops = [] ↔
      input.Unrefused := by
  rw [errorsOf_eq_nil_iff]
  constructor
  · intro none_ op member sets domainMap converted
    rcases List.mem_iff_append.mp member with ⟨before, behind, split⟩
    have done := none_ before op behind split
    have new : newDomainMap input.server op = some domainMap := by
      rw [newDomainMap, converted]
    rw [errorOf, if_pos sets, setDomains, new,
      dbmsSetDomainMap_eq_none_iff (filled_of_domainMapElemToHash converted),
      taken_iff (principals_foldl _ _ before _)] at done
    exact done
  · intro unrefused before op behind split
    rw [errorOf]
    by_cases sets : op.Sets .domainMap
    · have member : op ∈ input.ops := by
        rw [split]
        exact List.mem_append_right _ List.mem_cons_self
      rcases converts op member sets with ⟨map, converted⟩
      have new : newDomainMap input.server op = map := by
        rw [newDomainMap, converted]
      rw [if_pos sets, setDomains, new]
      cases map with
      | none =>
          rw [dbmsSetDomainMap, if_neg Bool.false_ne_true]
      | some domainMap =>
          rw [dbmsSetDomainMap_eq_none_iff
              (filled_of_domainMapElemToHash converted),
            taken_iff (principals_foldl _ _ before _)]
          exact unrefused op member sets domainMap converted
    · exact if_neg sets

/-! ### The commit -/

theorem lastOp_spec
    {propid : Propid}
    (found : lastOp propid input.ops = some op) :
    op ∈ input.ops ∧ op.propid = propid := by
  rcases Rollback.last_spec found with ⟨member, here⟩
  exact ⟨member, beq_iff_eq.mp here⟩

theorem propid_ne_of_lastOp
    {propid : Propid}
    (none_ : lastOp propid input.ops = none) :
    ∀ op ∈ input.ops, op.propid ≠ propid := fun op member =>
  beq_eq_false_iff_ne.mp (Rollback.last_eq_none.mp none_ op member)

/-- A view that only operations on another property change. -/
theorem executed_of_none
    {View : Type} {view : State → View} {propid : Propid}
    (idle : ∀ state op, op.propid ≠ propid →
      view (stateAfter input.server input.target state op) = view state)
    (none_ : lastOp propid input.ops = none) :
    view input.executed = view input.state :=
  Rollback.foldl_of_idle
    (fun op member state =>
      idle state op (propid_ne_of_lastOp none_ op member))
    input.state

theorem domains_other
    (state : State) (op : PatchOp)
    (other : op.propid ≠ .domainMap) :
    (stateAfter input.server input.target state op).domains =
      state.domains :=
  if_neg fun sets => other sets.1

theorem userRow_other
    (state : State) (op : PatchOp)
    (other : op.propid ≠ .loginToAllDomains) :
    (stateAfter input.server input.target state op).userRow =
      state.userRow :=
  if_neg fun sets => other sets.1

theorem limebarRow_other
    (state : State) (op : PatchOp)
    (other : op.propid ≠ .limebarState) :
    (stateAfter input.server input.target state op).limebarRow =
      state.limebarRow :=
  if_neg fun sets => other sets.1

/-- The exec hooks write no row with a number. -/
theorem executed_collectionRow :
    input.executed.collectionRow = input.state.collectionRow :=
  @Rollback.foldl_of_idle _ _ _ (stateAfter input.server input.target)
    State.collectionRow input.ops (fun _ _ _ => rfl) input.state

theorem executed_vcrRow : input.executed.vcrRow = input.state.vcrRow :=
  @Rollback.foldl_of_idle _ _ _ (stateAfter input.server input.target)
    State.vcrRow input.ops (fun _ _ _ => rfl) input.state

theorem committed_domains :
    input.committed.domains = input.executed.domains := by
  rw [committed, commitAll_eq]

theorem committed_userRow :
    input.committed.userRow = input.executed.userRow := by
  rw [committed, commitAll_eq]

theorem committed_limebarRow :
    input.committed.limebarRow = input.executed.limebarRow := by
  rw [committed, commitAll_eq]

theorem committed_collectionRow :
    input.committed.collectionRow =
      written (input.infos.any
          (commitsCollection input.target input.executed.avNewChildren))
        input.executed.avNewChildren input.state.collectionRow := by
  rw [committed, commitAll_eq, executed_collectionRow]

theorem committed_vcrRow :
    input.committed.vcrRow =
      written (input.infos.any
          (commitsVcr input.target input.executed.autoversionType))
        input.executed.autoversionType input.state.vcrRow := by
  rw [committed, commitAll_eq, executed_vcrRow]

/-- A row is written iff a SET saved another number. -/
theorem any_commitsNumber
    {propid : Propid} {applies : Bool} {number : Int}
    (numbered : propid = .autoVersionNewChildren ∨ propid = .autoVersion) :
    input.infos.any (commitsNumber propid applies number) = true ↔
      applies = true ∧
        ∃ before earlier behind, input.ops = before ++ earlier :: behind ∧
          earlier.Sets propid ∧ number ≠ savedType input.state before := by
  rw [List.any_eq_true]
  constructor
  · rintro ⟨info, member, writes⟩
    rcases Rollback.mem_contexts.mp member with
      ⟨before, earlier, behind, split, rfl⟩
    rw [commitsNumber_contextOf numbered, autoversionType_foldl] at writes
    exact ⟨writes.1, before, earlier, behind, split, writes.2⟩
  · rintro ⟨collection, before, earlier, behind, split, sets, other⟩
    refine ⟨_, Rollback.mem_contexts.mpr
      ⟨before, earlier, behind, split, rfl⟩, ?_⟩
    rw [commitsNumber_contextOf numbered, autoversionType_foldl]
    exact ⟨collection, sets, other⟩

/-- The number in memory after the last operation. -/
theorem avNewChildren_executed
    {number : Int}
    (found : lastOp .autoVersionNewChildren input.ops = some op)
    (known : numberOf op = some number) :
    input.executed.avNewChildren = number := by
  have idle : ∀ (state : State) (other : PatchOp),
      (other.propid == Propid.autoVersionNewChildren) = false →
      (stateAfter input.server input.target state other).avNewChildren =
        state.avNewChildren := fun state other differs =>
    if_neg (beq_eq_false_iff_ne.mp differs)
  rcases @Rollback.foldl_of_last _ _ _ _ State.avNewChildren input.state _ _
    _ idle found with ⟨before, -, decided⟩
  rw [executed, decided, stateAfter]
  exact (if_pos (lastOp_spec found).2).trans (avAfter_of_numberOf known)

/-- The number is stored if it was, or if a SET saved another one. -/
theorem newChildren_iff
    (found : lastOp .autoVersionNewChildren input.ops = some op) :
    HoldsNumber input.committed.collectionRow op ↔
      HoldsNumber input.state.collectionRow op ∨ input.Rewrites op := by
  rcases lastOp_spec found with ⟨member, here⟩
  have accepted := input.accepted op member
  rw [committed_collectionRow]
  by_cases writes : input.infos.any (commitsCollection input.target
      input.executed.avNewChildren) = true
  · rw [writes]
    rw [commitsCollection, any_commitsNumber (Or.inl rfl)] at writes
    rcases writes with ⟨collection, saved⟩
    rcases numberOf_of_accepted accepted here collection with ⟨number, known⟩
    rw [avNewChildren_executed found known] at saved ⊢
    cases row : input.state.collectionRow with
    | none =>
        have unwritten : ¬ input.Rewrites op := by
          intro rewrites
          have filled := rewrites.2.1
          rw [row] at filled
          cases filled
        rw [or_iff_left unwritten]
        rfl
    | some value =>
        have holds : HoldsNumber (written true number (some value)) op :=
          holdsNumber_of_numberOf known
        refine ⟨fun _ => Or.inr ⟨collection, ?_, ?_⟩, fun _ => holds⟩
        · rw [row]
          rfl
        · rcases saved with ⟨before, earlier, behind, split, sets, other⟩
          refine ⟨before, earlier, behind, split, sets, fun same => ?_⟩
          rw [known] at same
          exact other (Option.some.inj same)
  · have unwritten : ¬ input.Rewrites op := by
      rintro ⟨collection, -, before, earlier, behind, split, sets, other⟩
      rcases numberOf_of_accepted accepted here collection with
        ⟨number, known⟩
      rw [known] at other
      apply writes
      rw [avNewChildren_executed found known, commitsCollection,
        any_commitsNumber (Or.inl rfl)]
      exact ⟨collection, before, earlier, behind, split, sets,
        fun same => other (congrArg some same)⟩
    rw [Bool.eq_false_iff.mpr writes, or_iff_left unwritten]
    rfl

/-- The type of the versioned resource is always stored. -/
theorem autoVersion_committed
    (found : lastOp .autoVersion input.ops = some op) :
    HoldsNumber input.committed.vcrRow op := by
  rcases lastOp_spec found with ⟨member, here⟩
  rcases autoVersion_of_accepted (input.accepted op member) here with
    ⟨versioned, set, named⟩
  have holds : HoldsNumber (some davAvCheckoutCheckin) op := by
    rw [HoldsNumber, set]
    refine ⟨davAvCheckoutCheckin, ?_, rfl⟩
    rw [named]
    rfl
  have value : input.executed.autoversionType = davAvCheckoutCheckin := by
    rw [executed, autoversionType_foldl, savedType]
    exact if_pos ⟨op, member, here, set⟩
  rw [committed_vcrRow, value, input.stored.vcr versioned]
  by_cases same : input.state.autoversionType = davAvCheckoutCheckin
  · rw [same, written, Option.map_some, ite_self]
    exact holds
  · have matters : decide (op.Sets .autoVersion) = true :=
      decide_eq_true ⟨here, set⟩
    rcases @Rollback.exists_first _ _ _
      (fun op => decide (PatchOp.Sets op .autoVersion)) member matters with
      ⟨before, first, behind, split, sets, others⟩
    have saved : savedType input.state before =
        input.state.autoversionType := by
      apply if_neg
      rintro ⟨earlier, early, also⟩
      exact of_decide_eq_false (others earlier early) also
    have writes : input.infos.any (commitsVcr input.target
        davAvCheckoutCheckin) = true := by
      rw [commitsVcr, any_commitsNumber (Or.inr rfl)]
      refine ⟨versioned, before, first, behind, split, of_decide_eq_true sets,
        ?_⟩
      rw [saved]
      exact Ne.symm same
    rw [writes]
    exact holds

/-- The state of the limebar is written by the exec hook. -/
theorem limebar_executed
    (found : lastOp .limebarState input.ops = some op) :
    input.executed.limebarRow = some (input.server.innerText op.elem) ∧
      op.operation = .set := by
  rcases lastOp_spec found with ⟨member, here⟩
  have set : op.operation = .set := by
    have accepted := input.accepted op member
    cases operation : op.operation with
    | set => rfl
    | delete =>
        simp [patchValidate, here, davLimebitsPatchValidate, operation]
          at accepted
  have idle : ∀ (state : State) (other : PatchOp),
      (other.propid == Propid.limebarState) = false →
      (stateAfter input.server input.target state other).limebarRow =
        state.limebarRow := fun state other differs =>
    limebarRow_other state other (beq_eq_false_iff_ne.mp differs)
  rcases @Rollback.foldl_of_last _ _ _ _ State.limebarRow input.state _ _
    _ idle found with ⟨before, -, decided⟩
  rw [executed, decided]
  exact ⟨if_pos ⟨here, set⟩, set⟩

/-- The row of a user stays, and no other one appears. -/
theorem isSome_userRow_foldl
    (server : Server) (target : Target) (ops : List PatchOp)
    (state : State) :
    (ops.foldl (stateAfter server target) state).userRow.isSome =
      state.userRow.isSome := by
  apply @Rollback.foldl_of_idle _ _ _ _ fun state : State =>
    state.userRow.isSome
  intro op member state
  rw [stateAfter]
  dsimp only
  split
  · rw [dbmsSetUserLoginToAllDomains, Option.isSome_map]
  · rfl

/-- The flag of a user is stored, and of others it can only be cleared. -/
theorem login_iff
    (found : lastOp .loginToAllDomains input.ops = some op) :
    HoldsValue input.server input.target input.committed op ↔
      (op.operation = .set →
        isTrue (input.server.innerText op.elem) = true →
          input.target.isUser = true) := by
  rcases lastOp_spec found with ⟨member, here⟩
  cases operation : op.operation with
  | delete =>
      have unowned : input.target.isUser = false := by
        have accepted := input.accepted op member
        cases user : input.target.isUser with
        | false => rfl
        | true =>
            simp [patchValidate, here, davLimebitsPatchValidate, operation,
              user] at accepted
      have absent : input.executed.userRow = none := by
        rw [← Option.not_isSome_iff_eq_none, executed,
          isSome_userRow_foldl, input.stored.user, unowned]
        exact Bool.false_ne_true
      simp [HoldsValue, here, operation, committed_userRow, absent,
        dbmsGetUserLoginToAllDomains]
  | set =>
      have idle : ∀ (state : State) (other : PatchOp),
          (other.propid == Propid.loginToAllDomains) = false →
          (stateAfter input.server input.target state other).userRow =
            state.userRow := fun state other differs =>
        userRow_other state other (beq_eq_false_iff_ne.mp differs)
      rcases @Rollback.foldl_of_last _ _ _ _ State.userRow input.state _ _
        _ idle found with ⟨before, -, decided⟩
      have user := isSome_userRow_foldl input.server input.target before
        input.state
      rw [input.stored.user] at user
      have after : input.executed.userRow =
          dbmsSetUserLoginToAllDomains
            (before.foldl (stateAfter input.server input.target)
              input.state).userRow
            (isTrue (input.server.innerText op.elem)) := by
        rw [executed, decided]
        exact if_pos ⟨here, operation⟩
      simp only [HoldsValue, here, operation, committed_userRow, after]
      generalize (before.foldl (stateAfter input.server input.target)
        input.state).userRow = row at user
      rw [← user]
      cases row with
      | none => simp [dbmsSetUserLoginToAllDomains,
          dbmsGetUserLoginToAllDomains]
      | some value => simp [dbmsSetUserLoginToAllDomains,
          dbmsGetUserLoginToAllDomains]

/-- The last SET decides the map. -/
theorem executed_domains
    (found : Rollback.last (fun op => op.Sets .domainMap) input.ops =
      some op) :
    ∃ table : DomainTable,
      table.principals = input.state.domains.principals ∧
      storedMap input.server input.target input.executed.domains =
        mapAfter input.server input.target table
          (newDomainMap input.server op) := by
  have idle : ∀ (state : State) (other : PatchOp),
      decide (other.Sets .domainMap) = false →
      (stateAfter input.server input.target state other).domains =
        state.domains := fun state other differs =>
    if_neg (of_decide_eq_false differs)
  rcases @Rollback.foldl_of_last _ _ _ _ State.domains input.state _ _
    _ idle found with ⟨before, -, decided⟩
  refine ⟨_, principals_foldl input.server input.target before input.state,
    ?_⟩
  rw [executed, decided, stateAfter]
  dsimp only
  rw [if_pos (of_decide_eq_true (Rollback.last_spec found).2)]
  rfl

theorem executed_domains_of_none
    (none_ : Rollback.last (fun op => op.Sets .domainMap) input.ops =
      none) :
    input.executed.domains = input.state.domains := by
  apply @Rollback.foldl_of_idle _ _ _ (stateAfter input.server input.target)
    State.domains
  intro op member state
  exact if_neg
    (of_decide_eq_false (Rollback.last_eq_none.mp none_ op member))

/-- The map of the last operation is stored iff none of it is lost. -/
theorem domainMap_iff
    (converts : ∀ op ∈ input.ops, Converts input.server op)
    (unrefused : input.Unrefused)
    (found : lastOp .domainMap input.ops = some op) :
    HoldsValue input.server input.target input.committed op ↔
      input.KeepsMap op := by
  rcases lastOp_spec found with ⟨member, here⟩
  cases operation : op.operation with
  | set =>
      have narrow : ∀ op : PatchOp, decide (op.Sets .domainMap) = true →
          (op.propid == Propid.domainMap) = true := fun op sets =>
        beq_iff_eq.mpr (of_decide_eq_true sets).1
      have last := Rollback.last_of_last narrow found
        (decide_eq_true ⟨here, operation⟩)
      rcases executed_domains last with ⟨table, principals, stored⟩
      rcases converts op member ⟨here, operation⟩ with ⟨map, converted⟩
      have new : newDomainMap input.server op = map := by
        rw [newDomainMap, converted]
      simp only [HoldsValue, here, operation, KeepsMap, committed_domains,
        stored, new, converted, Except.ok.injEq, forall_eq']
      cases map with
      | none =>
          rw [mapAfter_none]
          exact ⟨fun _ _ never => (by cases never), fun _ => rfl⟩
      | some domainMap =>
          have taken := (taken_iff principals).mpr
            (unrefused op member ⟨here, operation⟩ domainMap converted)
          rw [Option.map_some, mapAfter_eq_iff
            (filled_of_domainMapElemToHash converted) taken]
          simp
  | delete =>
      simp only [HoldsValue, here, operation, KeepsMap, committed_domains]
      cases earlier : Rollback.last
          (fun op => decide (PatchOp.Sets op .domainMap)) input.ops with
      | none => rw [executed_domains_of_none earlier]
      | some set =>
          rcases executed_domains earlier with ⟨table, principals, stored⟩
          rcases Rollback.last_spec earlier with ⟨inside, sets⟩
          have sets := of_decide_eq_true sets
          rcases converts set inside sets with ⟨map, converted⟩
          have new : newDomainMap input.server set = map := by
            rw [newDomainMap, converted]
          simp only [stored, new, converted, Except.ok.injEq]
          cases map with
          | none =>
              rw [mapAfter_none]
              exact ⟨fun _ _ never => (by cases never), fun _ => rfl⟩
          | some domainMap =>
              have taken := (taken_iff principals).mpr
                (unrefused set inside sets domainMap converted)
              rw [mapAfter_eq_none_iff
                (filled_of_domainMapElemToHash converted) taken]
              simp

/-! ### The rollback -/

section Undo

variable {server : Server} {target : Target} {state after : State}

/-- What no rollback hook writes. -/
theorem patchRollback_rows (info : RollbackInfo) :
    (patchRollback server target after info).collectionRow =
        after.collectionRow ∧
      (patchRollback server target after info).vcrRow = after.vcrRow ∧
      (patchRollback server target after info).limebarRow =
        after.limebarRow ∧
      (patchRollback server target after info).domains.principals =
        after.domains.principals := by
  rw [patchRollback]
  split
  · exact ⟨rfl, rfl, rfl, principals_dbmsSetDomainMap⟩
  · exact ⟨rfl, rfl, rfl, rfl⟩
  · split
    · exact ⟨rfl, rfl, rfl, rfl⟩
    · exact ⟨rfl, rfl, rfl, rfl⟩
  · exact ⟨rfl, rfl, rfl, rfl⟩

/-- The flag is the one that was read before it was written. -/
theorem patchRollback_userRow
    (same : after.userRow = (stateAfter server target state op).userRow) :
    (patchRollback server target after
      (contextOf server target state op)).userRow = state.userRow := by
  rcases op with ⟨propid, operation, elem⟩
  cases propid with
  | loginToAllDomains =>
      cases operation with
      | delete => exact same
      | set =>
          have row : after.userRow = dbmsSetUserLoginToAllDomains
              state.userRow (isTrue (server.innerText elem)) := same
          by_cases kept : isTrue (server.innerText elem) =
              dbmsGetUserLoginToAllDomains state.userRow
          · rw [kept, dbmsSetUserLoginToAllDomains_same] at row
            simp [patchRollback, contextOf, dataOf, kept, row]
          · simp only [patchRollback, contextOf, dataOf, kept, if_false, row]
            cases state.userRow with
            | none => rfl
            | some value => rfl
  | domainMap => exact same
  | autoVersionNewChildren =>
      cases operation with
      | set => exact same
      | delete => exact same
  | limebarState =>
      cases operation with
      | set => exact same
      | delete => exact same
  | autoVersion =>
      cases operation with
      | delete => exact same
      | set =>
          simp only [patchRollback, contextOf, dataOf]
          split
          · exact same
          · exact same

theorem patchRollback_domains_other
    (other : op.propid ≠ .domainMap) :
    (patchRollback server target after
      (contextOf server target state op)).domains = after.domains := by
  rw [patchRollback]
  split
  case h_1 here _ => exact (other here).elim
  case h_2 => rfl
  case h_3 =>
    split
    · rfl
    · rfl
  case h_4 => rfl

theorem patchRollback_domains
    (here : op.propid = .domainMap) :
    (patchRollback server target after
      (contextOf server target state op)).domains =
      (dbmsSetDomainMap (fun _ => false) server.order after.domains
        target.serialno
        (dbmsGetDomainMap server.rowOrder state.domains
          target.serialno)).1 := by
  rcases op with ⟨propid, operation, elem⟩
  rcases here with rfl
  rfl

end Undo

theorem rolledBack_collectionRow :
    input.rolledBack.collectionRow = input.state.collectionRow := by
  rw [← executed_collectionRow]
  apply @Rollback.rollBack_keeps _ _ _ _ State.collectionRow
  exact fun info _ after => (patchRollback_rows info).1

theorem rolledBack_vcrRow :
    input.rolledBack.vcrRow = input.state.vcrRow := by
  rw [← executed_vcrRow]
  apply @Rollback.rollBack_keeps _ _ _ _ State.vcrRow
  exact fun info _ after => (patchRollback_rows info).2.1

theorem rolledBack_limebarRow :
    input.rolledBack.limebarRow = input.executed.limebarRow := by
  apply @Rollback.rollBack_keeps _ _ _ _ State.limebarRow
  exact fun info _ after => (patchRollback_rows info).2.2.1

theorem rolledBack_userRow :
    input.rolledBack.userRow = input.state.userRow := by
  apply @Rollback.rollBack_undoes _ _ _ _
    (stateAfter input.server input.target) _ _ State.userRow
  · exact fun state op after same => patchRollback_userRow same
  · rfl

/-- The state of the limebar is restored iff the last text was stored. -/
theorem limebar_rolledBack_iff :
    input.rolledBack.limebarRow = input.state.limebarRow ↔
      ∀ op, lastOp .limebarState input.ops = some op →
        input.state.limebarRow = some (input.server.innerText op.elem) := by
  rw [rolledBack_limebarRow]
  cases found : lastOp .limebarState input.ops with
  | none =>
      exact ⟨fun _ _ never => (by cases never),
        fun _ => executed_of_none limebarRow_other found⟩
  | some op =>
      rw [(limebar_executed found).1]
      constructor
      · intro same other last
        rcases Option.some.inj last with rfl
        exact same.symm
      · exact fun restored => (restored op rfl).symm

/-- The map that was read is written back iff it has no mark. -/
theorem mapAfter_eq_stored
    {table : DomainTable}
    (principals : table.principals = input.state.domains.principals) :
    mapAfter input.server input.target table
        (dbmsGetDomainMap input.server.rowOrder input.state.domains
          input.target.serialno) =
        storedMap input.server input.target input.state.domains ↔
      ∀ domainMap, dbmsGetDomainMap input.server.rowOrder input.state.domains
        input.target.serialno = some domainMap → ¬ IsMarked domainMap := by
  rw [LivepropHooks.storedMap]
  cases found : dbmsGetDomainMap input.server.rowOrder input.state.domains
    input.target.serialno with
  | none =>
      rw [mapAfter_none]
      exact ⟨fun _ _ never => (by cases never), fun _ => rfl⟩
  | some domainMap =>
      rcases accepted_of_stored input.stored found with
        ⟨filled, accepted, whole⟩
      rw [Option.map_some, mapAfter_eq_iff filled
        (Or.inr (accepted_of_principals principals accepted)), Whole,
        and_iff_left whole]
      simp

/-- The map is restored iff the one that was stored is not lost. -/
theorem domains_rolledBack_iff :
    storedMap input.server input.target input.rolledBack.domains =
        storedMap input.server input.target input.state.domains ↔
      ∀ op, lastOp .domainMap input.ops = some op → ∀ domainMap,
        dbmsGetDomainMap input.server.rowOrder input.state.domains
          input.target.serialno = some domainMap → ¬ IsMarked domainMap := by
  cases found : lastOp .domainMap input.ops with
  | none =>
      have others := propid_ne_of_lastOp found
      have executed : input.executed.domains = input.state.domains :=
        executed_of_none domains_other found
      have kept : input.rolledBack.domains = input.executed.domains := by
        apply @Rollback.rollBack_keeps _ _ _ _ State.domains
        intro info member after
        rcases Rollback.mem_contexts.mp member with
          ⟨before, op, behind, split, rfl⟩
        apply patchRollback_domains_other
        apply others op
        rw [split]
        exact List.mem_append_right _ List.mem_cons_self
      rw [kept, executed]
      exact ⟨fun _ _ never => (by cases never), fun _ => rfl⟩
  | some op =>
      rcases Rollback.last_spec found with ⟨member, matters⟩
      rcases @Rollback.exists_first _ _ _
        (fun op : PatchOp => op.propid == Propid.domainMap) member matters
        with ⟨before, first, behind, split, here, early⟩
      have others : ∀ op ∈ before, op.propid ≠ .domainMap :=
        fun op member => beq_eq_false_iff_ne.mp (early op member)
      have reached : (before.foldl (stateAfter input.server input.target)
          input.state).domains = input.state.domains := by
        apply @Rollback.foldl_of_idle _ _ _
          (stateAfter input.server input.target) State.domains
        exact fun op member state =>
          domains_other state op (others op member)
      have idle : ∀ op ∈ before, ∀ state after,
          (patchRollback input.server input.target after
            (contextOf input.server input.target state op)).domains =
              after.domains := fun op member state after =>
        patchRollback_domains_other (others op member)
      rcases @Rollback.rollBack_first _ _ _ _
        (stateAfter input.server input.target)
        (contextOf input.server input.target)
        (patchRollback input.server input.target) State.domains input.state
        input.executed first before behind idle with ⟨infos, undone⟩
      rw [← split] at undone
      have undone : input.rolledBack.domains = _ := undone
      have principals : (Rollback.rollBack
          (patchRollback input.server input.target) input.executed
            infos).domains.principals = input.state.domains.principals := by
        rw [← principals_foldl input.server input.target input.ops input.state]
        apply @Rollback.rollBack_keeps _ _ _ _ fun state : State =>
          state.domains.principals
        exact fun info _ after => (patchRollback_rows info).2.2.2
      rw [undone, patchRollback_domains (beq_iff_eq.mp here), reached]
      have back := @mapAfter_eq_stored input (Rollback.rollBack
        (patchRollback input.server input.target) input.executed infos).domains
        principals
      refine back.trans ?_
      exact ⟨fun unmarked _ _ => unmarked, fun all => all op rfl⟩

/-! ### The theorem -/

/-- A property without an operation is left by the commit. -/
theorem sameProperty_committed
    {propid : Propid}
    (none_ : lastOp propid input.ops = none) :
    SameProperty input.server input.target input.state input.committed
      propid := by
  have unwritten : ∀ applies number,
      propid = .autoVersionNewChildren ∨ propid = .autoVersion →
      input.infos.any (commitsNumber propid applies number) = false := by
    intro applies number numbered
    rw [Bool.eq_false_iff]
    intro writes
    rw [any_commitsNumber numbered] at writes
    rcases writes with ⟨-, before, earlier, behind, split, sets, -⟩
    apply propid_ne_of_lastOp none_ earlier _ sets.1
    rw [split]
    exact List.mem_append_right _ List.mem_cons_self
  cases propid with
  | domainMap =>
      show storedMap _ _ _ = _
      rw [committed_domains, executed_of_none domains_other none_]
  | loginToAllDomains =>
      exact committed_userRow.trans (executed_of_none userRow_other none_)
  | autoVersionNewChildren =>
      show input.committed.collectionRow = _
      rw [committed_collectionRow, commitsCollection,
        unwritten _ _ (Or.inl rfl)]
      rfl
  | limebarState =>
      exact committed_limebarRow.trans
        (executed_of_none limebarRow_other none_)
  | autoVersion =>
      show input.committed.vcrRow = _
      rw [committed_vcrRow, commitsVcr, unwritten _ _ (Or.inr rfl)]
      rfl

/-- A property is stored if the value of its last operation is. -/
theorem storesLast_iff
    {propid : Propid} {P : PatchOp → Prop}
    (each : ∀ op, lastOp propid input.ops = some op →
      (HoldsValue input.server input.target input.committed op ↔ P op)) :
    input.StoresLast input.committed propid ↔
      ∀ op, lastOp propid input.ops = some op → P op := by
  rw [StoresLast]
  cases found : lastOp propid input.ops with
  | none =>
      exact ⟨fun _ _ never => (by cases never),
        fun _ => sameProperty_committed found⟩
  | some op =>
      refine (each op found).trans ⟨?_, fun all => all op rfl⟩
      intro holds other same
      rcases Option.some.inj same with rfl
      exact holds

/-- The properties one by one. -/
theorem forall_propid {P : Propid → Prop} :
    (∀ propid, P propid) ↔
      P .domainMap ∧ P .loginToAllDomains ∧ P .autoVersionNewChildren ∧
        P .limebarState ∧ P .autoVersion := by
  constructor
  · exact fun all => ⟨all _, all _, all _, all _, all _⟩
  · rintro ⟨domainMap, login, newChildren, limebar, autoVersion⟩ propid
    cases propid with
    | domainMap => exact domainMap
    | loginToAllDomains => exact login
    | autoVersionNewChildren => exact newChildren
    | limebarState => exact limebar
    | autoVersion => exact autoVersion

/-- Which properties the commit may not store. -/
theorem commits_iff
    (converts : ∀ op ∈ input.ops, Converts input.server op)
    (unrefused : input.Unrefused) :
    (∀ propid, input.StoresLast input.committed propid) ↔
      (∀ op, lastOp .domainMap input.ops = some op → input.KeepsMap op) ∧
      (∀ op, lastOp .loginToAllDomains input.ops = some op →
        op.operation = .set →
          isTrue (input.server.innerText op.elem) = true →
            input.target.isUser = true) ∧
      ∀ op, lastOp .autoVersionNewChildren input.ops = some op →
        HoldsNumber input.state.collectionRow op ∨ input.Rewrites op := by
  have limebar : input.StoresLast input.committed .limebarState := by
    rw [storesLast_iff (P := fun _ => True)]
    · exact fun _ _ => trivial
    intro op found
    rw [iff_true]
    rcases limebar_executed found with ⟨row, set⟩
    simp only [HoldsValue, (lastOp_spec found).2, set]
    exact committed_limebarRow.trans row
  have autoVersion : input.StoresLast input.committed .autoVersion := by
    rw [storesLast_iff (P := fun _ => True)]
    · exact fun _ _ => trivial
    intro op found
    rw [iff_true]
    simp only [HoldsValue, (lastOp_spec found).2]
    exact autoVersion_committed found
  have newChildren : input.StoresLast input.committed
        .autoVersionNewChildren ↔
      ∀ op, lastOp .autoVersionNewChildren input.ops = some op →
        HoldsNumber input.state.collectionRow op ∨ input.Rewrites op := by
    apply storesLast_iff
    intro op found
    simp only [HoldsValue, (lastOp_spec found).2]
    exact newChildren_iff found
  have domainMap : input.StoresLast input.committed .domainMap ↔ _ :=
    storesLast_iff fun op found => domainMap_iff converts unrefused found
  have login : input.StoresLast input.committed .loginToAllDomains ↔ _ :=
    storesLast_iff fun op found => login_iff found
  rw [forall_propid, newChildren, domainMap, login]
  constructor
  · exact fun all => ⟨all.1, all.2.1, all.2.2.1⟩
  · exact fun three => ⟨three.1, three.2.1, three.2.2, limebar, autoVersion⟩

/-- Which properties the rollback may not restore. -/
theorem restores_iff :
    (∀ propid, SameProperty input.server input.target input.state
        input.rolledBack propid) ↔
      (∀ op, lastOp .domainMap input.ops = some op → ∀ domainMap,
        dbmsGetDomainMap input.server.rowOrder input.state.domains
          input.target.serialno = some domainMap → ¬ IsMarked domainMap) ∧
      ∀ op, lastOp .limebarState input.ops = some op →
        input.state.limebarRow =
          some (input.server.innerText op.elem) := by
  rw [forall_propid, ← domains_rolledBack_iff, ← limebar_rolledBack_iff]
  constructor
  · exact fun all => ⟨all.1, all.2.2.2.1⟩
  · exact fun both => ⟨both.1, rolledBack_userRow, rolledBack_collectionRow,
      both.2, rolledBack_vcrRow⟩

end PatchInput

open PatchInput in
/--
The hooks commit and roll back as a whole iff every map that is set has
domains and paths, the commit finds another number saved, no map is lost, the
flag is that of a user, and the state of the limebar is not changed.
-/
theorem patchesAsAWhole_iff (input : PatchInput) :
    input.PatchesAsAWhole ↔ input.Handled := by
  by_cases converts : ∀ op ∈ input.ops, Converts input.server op
  · have done := execAll_eq input.accepted converts input.state
    have whole : input.PatchesAsAWhole ↔
        (input.Unrefused →
          ∀ propid, input.StoresLast input.committed propid) ∧
        ∀ propid, SameProperty input.server input.target input.state
          input.rolledBack propid := by
      rw [PatchesAsAWhole, done, ← errorsOf_eq_nil_iff_unrefused converts]
      constructor
      · rintro ⟨final, infos, errs, same, commits, restores⟩
        rcases Prod.mk.inj (Except.ok.inj same) with ⟨rfl, both⟩
        rcases Prod.mk.inj both with ⟨rfl, rfl⟩
        exact ⟨commits, restores⟩
      · exact fun both => ⟨_, _, _, rfl, both⟩
    rw [whole, restores_iff]
    constructor
    · rintro ⟨commits, map, limebar⟩
      constructor
      case converts => exact converts
      case newChildren =>
        intro unrefused
        exact ((commits_iff converts unrefused).mp (commits unrefused)).2.2
      case domainMap =>
        intro unrefused
        exact ((commits_iff converts unrefused).mp (commits unrefused)).1
      case login =>
        intro unrefused
        exact ((commits_iff converts unrefused).mp (commits unrefused)).2.1
      case limebar => exact limebar
      case storedMap => exact map
    · intro handled
      refine ⟨fun unrefused => ?_, handled.storedMap, handled.limebar⟩
      exact (commits_iff converts unrefused).mpr
        ⟨handled.domainMap unrefused, handled.login unrefused,
          handled.newChildren unrefused⟩
  · constructor
    · rintro ⟨final, infos, errs, done, -⟩
      exact (converts (converts_of_execAll done)).elim
    · exact fun handled => (converts handled.converts).elim

/-- A server with one host. -/
def oneHost : Server where
  defnName := "limebits.com".toList
  davXmlGetCdata elem := elem.firstCdata.flatten
  innerText elem := elem.firstCdata.flatten
  permissionDeniedStatus := 403
  order := hashOrder
  rowOrder := Sql.RowOrder.stored UserDomain

/-- A versioned collection that is checked out and in by writes. -/
def versionedCollection : Target where
  serialno := 7
  isUser := false
  collection := true
  versioned := true
  mayReadPrivate := false

/-- Its new children are not versioned. -/
def unversionedChildren : State where
  collectionRow := some davAvNone
  domains := noDomains
  userRow := none
  limebarRow := none
  vcrRow := some davAvCheckoutCheckin
  avNewChildren := davAvNone
  autoversionType := davAvCheckoutCheckin
  limebarState := none

/-- New children are to be versioned as the collection is. -/
def setNewChildren : PatchOp where
  propid := .autoVersionNewChildren
  operation := .set
  elem := .mk "LB:".toList "auto-version-new-children".toList [] []
    [.mk davNs "checkout-checkin".toList [] [] []]

theorem setNewChildren_accepted :
    ∀ op ∈ [setNewChildren],
      patchValidate oneHost versionedCollection op = none := by
  intro op member
  rcases List.mem_singleton.mp member with rfl
  decide

theorem unversionedChildren_stored :
    unversionedChildren.Stored versionedCollection where
  user := rfl
  vcr _ := rfl
  principal _ member := (List.not_mem_nil member).elim
  lengths _ member := (List.not_mem_nil member).elim

/-- The value that is set is the type that the collection itself has. -/
def sameType : PatchInput where
  server := oneHost
  target := versionedCollection
  state := unversionedChildren
  ops := [setNewChildren]
  accepted := setNewChildren_accepted
  stored := unversionedChildren_stored

/-- The commit compares with the type of the collection and writes nothing. -/
theorem not_patchesAsAWhole :
    ¬ ∀ input : PatchInput, input.PatchesAsAWhole := by
  intro all
  rcases all sameType with ⟨final, infos, errs, done, commits, -⟩
  rcases Prod.mk.inj (Except.ok.inj done) with ⟨rfl, both⟩
  rcases Prod.mk.inj both with ⟨rfl, rfl⟩
  rcases commits rfl .autoVersionNewChildren with ⟨number, named, stored⟩
  have value : (some davAvCheckoutCheckin : Option Int) = some number := named
  have kept : some davAvNone = some number := stored
  rw [← value] at kept
  cases kept

end Limestone.LivepropHooks
