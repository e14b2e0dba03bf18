import Limestone.DbmsDeltav

/-!
# The errors of `dav_repos_vsn_control`

Every step of `sabridge_vsn_control` assigns its error to the same variable,
and the next step assigns to it again.  `dav_repos_vsn_control` assigns the
result to a variable of its own and returns NULL.

The database answers every step on its own here: a step may fail whatever the
other ones do.
-/

namespace Limestone.VsnControlErrors

open DbmsDeltav (VersionTables Version Vcr DavReposResource DavResource
  AutoversionType versionControlled childAutoversionType)

/-- The steps of `sabridge_vsn_control` that the database may refuse. -/
inductive VsnStep where
  | updateType
  | createVhr
  | mkVhrParents
  | bindVhr
  | createVhrAcl
  | mkVersionsCollection
  | createVersion
  | copyVersion
  | insertVhr
  | insertVersion
  | insertVcr
deriving DecidableEq, Repr

/-- The answers of the database: the error of a step that fails. -/
abbrev Answers :=
  VsnStep → Option DavError

/-- What one step leaves, and the error that it returns. -/
structure Stepped where
  tables : VersionTables
  err : Option DavError
  /-- The steps that have failed up to now. -/
  failed : List VsnStep
deriving DecidableEq

/-- A step has its effect where it does not fail. -/
def attempt (answers : Answers) (step : VsnStep) (failed : List VsnStep)
    (tables : VersionTables) (effect : Except DavError VersionTables) :
    Stepped :=
  match answers step, effect with
  | some err, _ => ⟨tables, some err, failed ++ [step]⟩
  | none, .error err => ⟨tables, some err, failed ++ [step]⟩
  | none, .ok changed => ⟨changed, none, failed⟩

/-! ## The bridge -/

/-- `sabridge_mk_vhr`; without an id `*p_vhr` is left NULL. -/
def sabridgeMkVhr (answers : Answers) (aclHooks : Bool) (before : Stepped)
    (missing : Nat) : Stepped × Option Id :=
  let created := DbmsDeltav.dbmsInsertResource before.tables .versionHistory
  let inserted :=
    attempt answers .createVhr before.failed before.tables (.ok created.1)
  match inserted.err with
  | some _ => (inserted, none)
  | none =>
      -- the error of `sabridge_mkcol_w_parents` is not assigned
      let parents := attempt answers .mkVhrParents inserted.failed
        inserted.tables
        (.ok (DbmsDeltav.sabridgeMkcolWParents inserted.tables missing))
      let bound := attempt answers .bindVhr parents.failed parents.tables
        (.ok parents.tables)
      let owned :=
        if aclHooks then
          attempt answers .createVhrAcl bound.failed bound.tables
            (.ok bound.tables)
        else bound
      (owned, some created.2)

/-- `sabridge_mk_new_version`, the error of the creation not being assigned. -/
def sabridgeMkNewVersion (answers : Answers) (before : Stepped)
    (vcr : DavReposResource) (vrNum : Int) : Stepped × Version :=
  let created := DbmsDeltav.sabridgeMkNewVersion before.tables vcr vrNum
  match vcr.resourcetype with
  | some .versioned | some .versionedCollection =>
      let inserted := attempt answers .createVersion before.failed
        before.tables (.ok created.1)
      let copied := attempt answers .copyVersion inserted.failed
        inserted.tables (.ok inserted.tables)
      (copied,
        { created.2 with
          resourceId := if inserted.err = none then created.2.resourceId
            else 0 })
  | _ => ({ before with err := none }, created.2)

/-- What `sabridge_vsn_control` does. -/
inductive VsnOutcome where
  /-- A NULL pointer is used. -/
  | crashed (failed : List VsnStep)
  | returned (stepped : Stepped) (r : DavReposResource)
deriving DecidableEq

/-- The steps behind the creation of the history. -/
def controlHistory (answers : Answers) (before : Stepped)
    (r : DavReposResource) (autoVersion : Bool)
    (avNewChildren : Option AutoversionType) (vhrId : Id) : VsnOutcome :=
  let collection := attempt answers .mkVersionsCollection before.failed
    before.tables (.ok before.tables)
  let first : Stepped × Version :=
    if autoVersion then
      (collection,
        { resourceId := r.serialno, number := 0, vcrId := 0, vhrId := 0 })
    else sabridgeMkNewVersion answers collection r 1
  let newVersion := { first.2 with vhrId := vhrId }
  let rooted := attempt answers .insertVhr first.1.failed first.1.tables
    (DbmsDeltav.dbmsInsertVhr first.1.tables ⟨vhrId, newVersion.resourceId⟩)
  let numbered :=
    if autoVersion then rooted
    else
      attempt answers .insertVersion rooted.failed rooted.tables
        (DbmsDeltav.dbmsInsertVersion rooted.tables newVersion)
  let r : DavReposResource :=
    { r with
      vhrId := vhrId
      vrNum := newVersion.number
      checkedId := newVersion.resourceId
      autoversionType := childAutoversionType r.autoversionType avNewChildren }
  let inserted := DbmsDeltav.dbmsInsertVcr numbered.tables r
  .returned
    (attempt answers .insertVcr numbered.failed numbered.tables
      (inserted.map Prod.fst))
    -- the state is set before the statement is executed
    { r with checkedState := .checkedIn, checkinOnUnlock := true }

/-- `sabridge_vsn_control`. -/
def sabridgeVsnControl (answers : Answers) (aclHooks : Bool)
    (tables : VersionTables) (r : DavReposResource) (autoVersion : Bool)
    (avNewChildren : Option AutoversionType) (missing : Nat) : VsnOutcome :=
  let typed :=
    attempt answers .updateType [] tables
      (match versionControlled r.resourcetype with
      | none => .error DbmsDeltav.dbmsError
      | some newResourceType =>
          .ok (DbmsDeltav.updateType tables r.serialno newResourceType))
  let r :=
    if typed.err = none then
      { r with resourcetype := versionControlled r.resourcetype }
    else r
  let history := sabridgeMkVhr answers aclHooks typed missing
  match history.2 with
  | none => .crashed history.1.failed
  | some vhrId =>
      controlHistory answers history.1 r autoVersion avNewChildren vhrId

/-! ## The hook -/

/-- What `dav_repos_vsn_control` does. -/
inductive HookOutcome where
  | crashed (failed : List VsnStep)
  /-- The failed steps are those inside `sabridge_vsn_control`. -/
  | returned (tables : VersionTables) (resource : DavResource)
      (err : Option DavError) (failed : List VsnStep)
deriving DecidableEq

/-- The steps inside `sabridge_vsn_control` that have failed. -/
def HookOutcome.failed : HookOutcome → List VsnStep
  | .crashed failed => failed
  | .returned _ _ _ failed => failed

/-- A `dav_error` is returned. -/
def HookOutcome.reportsError : HookOutcome → Bool
  | .crashed _ => false
  | .returned _ _ err _ => err.isSome

/--
`dav_repos_vsn_control`; the answer to the creation of a resource that does
not exist is `createAnswer`.
-/
def davReposVsnControl (answers : Answers) (createAnswer : Option DavError)
    (aclHooks : Bool) (tables : VersionTables) (resource : DavResource)
    (avNewChildren : Option AutoversionType) (missing : Nat) : HookOutcome :=
  let autoCreated := !resource.present
  let created : Except DavError (VersionTables × DavResource) :=
    if autoCreated then
      match createAnswer with
      | some err => .error err
      | none => DbmsDeltav.davReposCreateResource tables resource
    else .ok (tables, resource)
  match created with
  | .error err => .returned tables resource (some err) []
  | .ok (tables, resource) =>
      if !resource.regular then
        .returned tables resource
          (some ⟨httpConflict, "<DAV:must-be-versionable/>"⟩) []
      else if resource.versioned then .returned tables resource none []
      else
        match sabridgeVsnControl answers aclHooks tables resource.dbR
            autoCreated avNewChildren missing with
        | .crashed failed => .crashed failed
        | .returned stepped r =>
            -- `err` is assigned and not returned
            .returned stepped.tables
              { resource with dbR := r, versioned := true, working := false }
              none stepped.failed

/--
No failure of a step inside `sabridge_vsn_control` is reported: NULL is
returned, or a pointer that the failed step left NULL is used.
-/
theorem davReposVsnControl_hidesFailure
    (answers : Answers) (createAnswer : Option DavError) (aclHooks : Bool)
    (tables : VersionTables) (resource : DavResource)
    (avNewChildren : Option AutoversionType) (missing : Nat)
    {step : VsnStep}
    (failed : step ∈ (davReposVsnControl answers createAnswer aclHooks tables
      resource avNewChildren missing).failed) :
    (davReposVsnControl answers createAnswer aclHooks tables resource
      avNewChildren missing).reportsError = false := by
  simp only [davReposVsnControl] at failed ⊢
  split
  next err notCreated =>
      rw [notCreated] at failed
      cases failed
  next tables resource created =>
      rw [created] at failed
      dsimp only at failed ⊢
      split
      next irregular =>
          rw [if_pos irregular] at failed
          cases failed
      next regular =>
          rw [if_neg regular] at failed
          split
          · rfl
          · split
            · rfl
            · rfl

/-! ## A page whose insertion into `vcrs` fails -/

/-- Only one step fails. -/
def failsAt (step : VsnStep) : Answers := fun other =>
  if other = step then some DbmsDeltav.dbmsError else none

/-- One resource that is not under version control. -/
def plainPage : VersionTables where
  resources := [(10, .resource)]
  nextId := 11
  versions := []
  vhrs := []
  vcrs := []

/-- The resource as `dav_repos_get_resource` returns it. -/
def pageResource : DavResource where
  dbR :=
    { DbmsDeltav.davReposNewResource.dbR with
      serialno := 10, resourcetype := some .resource }
  present := true
  regular := true
  collection := false
  versioned := false
  working := false

theorem davReposVsnControl_hidesFailure_page :
    (davReposVsnControl (failsAt .insertVhr) none true plainPage pageResource
      none 0).reportsError = false :=
  davReposVsnControl_hidesFailure (failsAt .insertVhr) none true plainPage
    pageResource none 0 (show VsnStep.insertVhr ∈ _ by decide)

/-- The history is half built and there is no error. -/
theorem halfBuilt_not_reported :
    .insertVcr ∈ (davReposVsnControl (failsAt .insertVcr) none true plainPage
        pageResource none 0).failed ∧
      ∃ tables resource,
        davReposVsnControl (failsAt .insertVcr) none true plainPage
            pageResource none 0 =
          .returned tables resource none [.insertVcr] ∧
        tables.resources = [(10, .versioned), (11, .versionHistory),
          (12, .version)] ∧
        tables.vhrs = [⟨11, 12⟩] ∧
        tables.vcrs = [] := by
  constructor
  · decide
  · exact ⟨_, _, rfl, rfl, rfl, rfl⟩

end Limestone.VsnControlErrors
