import Limestone.DbmsDeltav
import Limestone.Library.Runs
import Mathlib.Data.List.Perm.Basic

/-!
# Version histories over sequences of requests: `version.c`

A request loads resources, calls the versioning hooks on them and ends with
its transaction.  The numbers of the versions, the root version and the
checked version stay in step, except that a resource which a request creates
under version control has no version before its first check-in.
-/

namespace Limestone.VersionHistories

open Library
open DbmsDeltav

/-! ## Requests -/

/-- The database, and the resources that the request has in memory. -/
structure Session where
  /-- The tables at the start of the transaction. -/
  committed : VersionTables
  current : VersionTables
  held : Id → Option DavResource

/-- A request starts with nothing loaded. -/
def Session.start (tables : VersionTables) : Session where
  committed := tables
  current := tables
  held := fun _ => none

/-- Memory has one `dav_resource` for each resource of a request. -/
def hold (held : Id → Option DavResource) (resource : DavResource) :
    Id → Option DavResource :=
  fun id => if id = resource.dbR.serialno then some resource else held id

/-- The foreign keys of the three tables. -/
def foreignKeys (tables : VersionTables) : Bool :=
  let resources := tables.resources.map Prod.fst
  let versions := tables.versions.map Version.resourceId
  let vhrs := tables.vhrs.map Vhr.resourceId
  let vcrs := tables.vcrs.map Vcr.resourceId
  (tables.versions.all fun version =>
    decide (version.resourceId ∈ resources) &&
      decide (version.vcrId ∈ vcrs) && decide (version.vhrId ∈ vhrs)) &&
  (tables.vhrs.all fun vhr =>
    decide (vhr.resourceId ∈ resources) &&
      decide (vhr.rootVersionId ∈ versions)) &&
  tables.vcrs.all fun vcr =>
    decide (vcr.resourceId ∈ resources) &&
      decide (vcr.checkedId ∈ versions) && decide (vcr.vhrId ∈ vhrs)

/-- A step of a request, or the end of its transaction. -/
inductive Step where
  | get (serialno : Id)
  /-- `dav_repos_vsn_control` of a URI without a resource. -/
  | autoCreate (collection : Bool) (avNewChildren : Option AutoversionType)
      (missing : Nat)
  | vsnControl (serialno : Id) (avNewChildren : Option AutoversionType)
      (missing : Nat)
  | checkout (serialno : Id)
  | uncheckout (serialno : Id)
  | checkin (serialno : Id)
  | commit
  | rollback
deriving DecidableEq, Repr

/-- What a call leaves in the tables and in memory. -/
def called (session : Session)
    (result : Except DavError (VersionTables × DavResource)) :
    Option Session :=
  match result with
  | .error _ => none
  | .ok (tables, resource) =>
      some { session with
        current := tables, held := hold session.held resource }

/--
A step that succeeds.  A transaction that breaks a foreign key is rolled back
at its end.
-/
def step (session : Session) : Step → Option Session
  | .get serialno =>
      if serialno ∈ session.current.resources.map Prod.fst then
        called session ((davReposGetResource session.current serialno).map
          fun resource => (session.current, resource))
      else none
  | .autoCreate collection avNewChildren missing =>
      called session (davReposVsnControl session.committed session.current
        { davReposNewResource with collection := collection }
        avNewChildren missing)
  | .vsnControl serialno avNewChildren missing =>
      (session.held serialno).bind fun resource =>
        called session (davReposVsnControl session.committed session.current
          resource avNewChildren missing)
  | .checkout serialno =>
      (session.held serialno).bind fun resource =>
        called session (davReposCheckout session.current resource)
  | .uncheckout serialno =>
      (session.held serialno).bind fun resource =>
        called session (davReposUncheckout session.current resource)
  | .checkin serialno =>
      (session.held serialno).bind fun resource =>
        called session (davReposCheckin session.current resource)
  | .commit =>
      some (Session.start
        (if foreignKeys session.current then session.current
        else session.committed))
  | .rollback => some (Session.start session.committed)

/--
The resources that the request created under version control and has not
checked in.
-/
def awaitingAfter (session : Session) (awaiting : List Id) :
    Step → List Id
  | .autoCreate collection avNewChildren missing =>
      if (step session (.autoCreate collection avNewChildren missing)).isSome
      then session.current.nextId :: awaiting
      else awaiting
  | .checkin serialno =>
      if (step session (.checkin serialno)).isSome then
        awaiting.filter fun id => id != serialno
      else awaiting
  | .commit => []
  | .rollback => []
  | _ => awaiting

/-- A session with the resources that await their first check-in. -/
structure Traced where
  session : Session
  awaiting : List Id

/-- A step that fails changes nothing. -/
def after (traced : Traced) (taken : Step) : Traced where
  session := (step traced.session taken).getD traced.session
  awaiting := awaitingAfter traced.session traced.awaiting taken

/-! ## Numbers in step -/

/-- The versions of a history. -/
def versionsOf (tables : VersionTables) (vhrId : Id) : List Version :=
  tables.versions.filter fun version => version.vhrId == vhrId

/-- The numbers `1..n`. -/
def numbers (count : Nat) : List Int :=
  (List.range count).map fun index : Nat => (index : Int) + 1

/-- The versions of a history are numbered without gaps or repeats. -/
def Numbered (tables : VersionTables) (vhrId : Id) : Prop :=
  List.Perm ((versionsOf tables vhrId).map Version.number)
    (numbers (versionsOf tables vhrId).length)

/-- The root version and the checked version of a resource with versions. -/
structure InStep (tables : VersionTables) (vcr : Vcr) : Prop where
  root : ∃ version ∈ versionsOf tables vcr.vhrId, version.number = 1 ∧
    ({ resourceId := vcr.vhrId
       rootVersionId := version.resourceId } : Vhr) ∈ tables.vhrs
  latest : ∃ version ∈ versionsOf tables vcr.vhrId,
    version.number = (versionsOf tables vcr.vhrId).length ∧
      version.resourceId = vcr.checkedId

/-- A resource without versions stands in for its own version. -/
structure AwaitsCheckin (tables : VersionTables) (vcr : Vcr) : Prop where
  noVersion : versionsOf tables vcr.vhrId = []
  root : ({ resourceId := vcr.vhrId
            rootVersionId := vcr.resourceId } : Vhr) ∈ tables.vhrs
  checked : vcr.checkedId = vcr.resourceId

/-! ## The invariant of the tables -/

/-- What every call keeps of the tables. -/
structure Consistent (tables : VersionTables) (awaiting : List Id) : Prop where
  resourcesPkey : (tables.resources.map Prod.fst).Nodup
  sequence : ∀ row ∈ tables.resources, 0 < row.1 ∧ row.1 < tables.nextId
  nextPositive : 0 < tables.nextId
  versionsKey : (tables.versions.map Version.resourceId).Nodup
  vhrsKey : (tables.vhrs.map Vhr.resourceId).Nodup
  vcrsKey : (tables.vcrs.map Vcr.resourceId).Nodup
  vcrsVhr : (tables.vcrs.map Vcr.vhrId).Nodup
  versionResource : ∀ version ∈ tables.versions, ∃ row ∈ tables.resources,
    row.1 = version.resourceId ∧
      (row.2 = .version ∨ row.2 = .collectionVersion)
  vhrResource : ∀ vhr ∈ tables.vhrs, ∃ row ∈ tables.resources,
    row.1 = vhr.resourceId
  vcrResource : ∀ vcr ∈ tables.vcrs, ∃ row ∈ tables.resources,
    row.1 = vcr.resourceId ∧ isVersioned row.2 = true
  controlled : ∀ row ∈ tables.resources, isVersioned row.2 = true →
    ∃ vcr ∈ tables.vcrs, vcr.resourceId = row.1
  vhrVcr : ∀ vhr ∈ tables.vhrs, ∃ vcr ∈ tables.vcrs,
    vcr.vhrId = vhr.resourceId
  versionVcr : ∀ version ∈ tables.versions, ∃ vcr ∈ tables.vcrs,
    vcr.resourceId = version.vcrId ∧ vcr.vhrId = version.vhrId
  awaitingVcr : ∀ id ∈ awaiting, ∃ vcr ∈ tables.vcrs, vcr.resourceId = id
  numbered : ∀ vcr ∈ tables.vcrs, Numbered tables vcr.vhrId
  awaits : ∀ vcr ∈ tables.vcrs, vcr.resourceId ∈ awaiting →
    AwaitsCheckin tables vcr
  inStep : ∀ vcr ∈ tables.vcrs, vcr.resourceId ∉ awaiting →
    InStep tables vcr

variable {tables : VersionTables} {awaiting : List Id}

theorem mem_versionsOf
    {vhrId : Id}
    {version : Version} :
    version ∈ versionsOf tables vhrId ↔
      version ∈ tables.versions ∧ version.vhrId = vhrId := by
  simp [versionsOf]

theorem numbers_succ (count : Nat) :
    numbers (count + 1) = numbers count ++ [(count : Int) + 1] := by
  simp [numbers, List.range_succ]

theorem mem_numbers
    {count : Nat}
    {number : Int} :
    number ∈ numbers count ↔ 1 ≤ number ∧ number ≤ count := by
  simp only [numbers, List.mem_map]
  constructor
  · rintro ⟨index, below, rfl⟩
    have below := List.mem_range.mp below
    omega
  · rintro ⟨lower, upper⟩
    exact ⟨(number - 1).toNat, List.mem_range.mpr (by omega), by omega⟩

/-- The number of a version lies between one and the number of versions. -/
theorem Numbered.bounds
    {vhrId : Id}
    (numbered : Numbered tables vhrId)
    {version : Version}
    (member : version ∈ versionsOf tables vhrId) :
    1 ≤ version.number ∧
      version.number ≤ (versionsOf tables vhrId).length := by
  apply mem_numbers.mp
  apply numbered.mem_iff.mp
  exact List.mem_map_of_mem member

theorem Consistent.vcr_unique
    (consistent : Consistent tables awaiting)
    {vcr other : Vcr}
    (member : vcr ∈ tables.vcrs)
    (otherMember : other ∈ tables.vcrs)
    (same : vcr.resourceId = other.resourceId) :
    vcr = other :=
  List.inj_on_of_nodup_map consistent.vcrsKey member otherMember same

theorem Consistent.vcr_unique_of_vhrId
    (consistent : Consistent tables awaiting)
    {vcr other : Vcr}
    (member : vcr ∈ tables.vcrs)
    (otherMember : other ∈ tables.vcrs)
    (same : vcr.vhrId = other.vhrId) :
    vcr = other :=
  List.inj_on_of_nodup_map consistent.vcrsVhr member otherMember same

theorem Consistent.resource_unique
    (consistent : Consistent tables awaiting)
    {row other : Id × ResourceType}
    (member : row ∈ tables.resources)
    (otherMember : other ∈ tables.resources)
    (same : row.1 = other.1) :
    row = other :=
  List.inj_on_of_nodup_map consistent.resourcesPkey member otherMember same

/-- A version is no resource under version control. -/
theorem Consistent.version_ne_vcr
    (consistent : Consistent tables awaiting)
    {version : Version}
    (member : version ∈ tables.versions)
    {vcr : Vcr}
    (controlled : vcr ∈ tables.vcrs) :
    version.resourceId ≠ vcr.resourceId := by
  intro same
  rcases consistent.versionResource version member with
    ⟨row, listed, rowId, isVersion⟩
  rcases consistent.vcrResource vcr controlled with
    ⟨other, otherListed, otherId, versioned⟩
  have equal : row = other := by
    apply consistent.resource_unique listed otherListed
    rw [rowId, otherId, same]
  rw [equal] at isVersion
  rcases isVersion with isVersion | isVersion
  · simp [isVersion, isVersioned] at versioned
  · simp [isVersion, isVersioned] at versioned

/-- What the sequence gives next is no resource. -/
theorem Consistent.nextId_fresh
    (consistent : Consistent tables awaiting) :
    tables.nextId ∉ tables.resources.map Prod.fst := by
  intro member
  rcases List.mem_map.mp member with ⟨row, listed, rowId⟩
  have below := (consistent.sequence row listed).2
  rw [rowId] at below
  exact Int.lt_irrefl _ below

/-! ## Loading the row of a resource -/

/-- `dbms_get_vcr_props` of a resource with versions. -/
theorem Consistent.dbmsGetVcrProps_inStep
    (consistent : Consistent tables awaiting)
    {vcr : Vcr}
    (member : vcr ∈ tables.vcrs)
    (settled : vcr.resourceId ∉ awaiting)
    {r : DavReposResource}
    (serialno : r.serialno = vcr.resourceId) :
    dbmsGetVcrProps tables r = .ok
      { r with
        checkedState := vcr.checkedState
        checkedId := vcr.checkedId
        vhrId := vcr.vhrId
        autoversionType := vcr.versionType
        vrNum := (versionsOf tables vcr.vhrId).length } := by
  rcases (consistent.inStep vcr member settled).latest with
    ⟨version, belongs, number, checked⟩
  have loaded := Sql.find_key consistent.vcrsKey member
  have looked := Sql.find_key consistent.versionsKey
    (mem_versionsOf.mp belongs).1
  rw [← serialno] at loaded
  rw [checked] at looked
  simp only [dbmsGetVcrProps, loaded, dbmsGetVersionNumber, looked, number]

/-- `dbms_get_vcr_props` of a resource that awaits its first check-in. -/
theorem Consistent.dbmsGetVcrProps_awaits
    (consistent : Consistent tables awaiting)
    {vcr : Vcr}
    (member : vcr ∈ tables.vcrs)
    (awaited : vcr.resourceId ∈ awaiting)
    {r : DavReposResource}
    (serialno : r.serialno = vcr.resourceId) :
    dbmsGetVcrProps tables r = .error
      ⟨httpInternalServerError, "Could not lookup version number"⟩ := by
  have checked := (consistent.awaits vcr member awaited).checked
  have loaded := Sql.find_key consistent.vcrsKey member
  rw [← serialno] at loaded
  have missing : (tables.versions.find? fun row =>
      row.resourceId == vcr.checkedId) = none := by
    rw [List.find?_eq_none]
    intro version listed
    rw [checked, beq_iff_eq]
    exact consistent.version_ne_vcr listed member
  simp only [dbmsGetVcrProps, loaded, dbmsGetVersionNumber, missing]

/-! ## Frames -/

/-- The history of another resource stays in step. -/
theorem InStep.frame
    {grown : VersionTables}
    {other : Vcr}
    (inStep : InStep tables other)
    (versions : versionsOf grown other.vhrId = versionsOf tables other.vhrId)
    (vhrs : ∀ vhr ∈ tables.vhrs, vhr.resourceId = other.vhrId →
      vhr ∈ grown.vhrs) :
    InStep grown other where
  root := by
    rw [versions]
    rcases inStep.root with ⟨version, belongs, number, root⟩
    exact ⟨version, belongs, number, vhrs _ root rfl⟩
  latest := by
    rw [versions]
    exact inStep.latest

theorem AwaitsCheckin.frame
    {grown : VersionTables}
    {other : Vcr}
    (awaits : AwaitsCheckin tables other)
    (versions : versionsOf grown other.vhrId = versionsOf tables other.vhrId)
    (vhrs : ∀ vhr ∈ tables.vhrs, vhr.resourceId = other.vhrId →
      vhr ∈ grown.vhrs) :
    AwaitsCheckin grown other where
  noVersion := by
    rw [versions]
    exact awaits.noVersion
  root := vhrs _ awaits.root rfl
  checked := awaits.checked

theorem Numbered.frame
    {grown : VersionTables}
    {vhrId : Id}
    (numbered : Numbered tables vhrId)
    (versions : versionsOf grown vhrId = versionsOf tables vhrId) :
    Numbered grown vhrId := by
  unfold Numbered
  rw [versions]
  exact numbered

/-! ## New resources -/

/-- Rows of `resources` were added, and nothing else. -/
structure Grows (tables grown : VersionTables) : Prop where
  resources : ∀ row ∈ tables.resources, row ∈ grown.resources
  nextId : tables.nextId ≤ grown.nextId
  versions : grown.versions = tables.versions
  vhrs : grown.vhrs = tables.vhrs
  vcrs : grown.vcrs = tables.vcrs

theorem Grows.refl (tables : VersionTables) : Grows tables tables where
  resources := fun _ listed => listed
  nextId := Int.le_refl _
  versions := rfl
  vhrs := rfl
  vcrs := rfl

theorem Grows.trans
    {middle grown : VersionTables}
    (first : Grows tables middle)
    (second : Grows middle grown) :
    Grows tables grown where
  resources := fun row listed =>
    second.resources row (first.resources row listed)
  nextId := Int.le_trans first.nextId second.nextId
  versions := second.versions.trans first.versions
  vhrs := second.vhrs.trans first.vhrs
  vcrs := second.vcrs.trans first.vcrs

theorem grows_dbmsInsertResource
    (tables : VersionTables)
    (resourcetype : ResourceType) :
    Grows tables (dbmsInsertResource tables resourcetype).1 where
  resources := fun row listed => List.mem_append_left _ listed
  nextId := by
    show tables.nextId ≤ tables.nextId + 1
    exact Int.le_of_lt (Int.lt_succ _)
  versions := rfl
  vhrs := rfl
  vcrs := rfl

theorem mem_dbmsInsertResource
    (tables : VersionTables)
    (resourcetype : ResourceType) :
    (tables.nextId, resourcetype) ∈
      (dbmsInsertResource tables resourcetype).1.resources :=
  List.mem_append_right _ (List.mem_singleton.mpr rfl)

theorem Grows.versionsOf
    {grown : VersionTables}
    (grows : Grows tables grown)
    (vhrId : Id) :
    versionsOf grown vhrId = versionsOf tables vhrId := by
  simp only [VersionHistories.versionsOf, grows.versions]

/-- A new resource that is not under version control. -/
theorem Consistent.dbmsInsertResource
    (consistent : Consistent tables awaiting)
    {resourcetype : ResourceType}
    (uncontrolled : isVersioned resourcetype = false) :
    Consistent (dbmsInsertResource tables resourcetype).1 awaiting := by
  have grows := grows_dbmsInsertResource tables resourcetype
  constructor
  case resourcesPkey =>
    show (tables.resources ++ [(tables.nextId, resourcetype)]
      |>.map Prod.fst).Nodup
    rw [List.map_append, List.nodup_append]
    exact ⟨consistent.resourcesPkey, List.nodup_singleton _, by
      intro id member other otherMember same
      rw [List.map_singleton, List.mem_singleton] at otherMember
      rw [same, otherMember] at member
      exact consistent.nextId_fresh member⟩
  case sequence =>
    intro row listed
    show 0 < row.1 ∧ row.1 < tables.nextId + 1
    rcases List.mem_append.mp listed with listed | new
    · have bounds := consistent.sequence row listed
      exact ⟨bounds.1, Int.lt_trans bounds.2 (Int.lt_succ _)⟩
    · rw [List.mem_singleton.mp new]
      exact ⟨consistent.nextPositive, Int.lt_succ _⟩
  case nextPositive =>
    show 0 < tables.nextId + 1
    exact Int.lt_trans consistent.nextPositive (Int.lt_succ _)
  case controlled =>
    intro row listed versioned
    rcases List.mem_append.mp listed with listed | new
    · exact consistent.controlled row listed versioned
    · rw [List.mem_singleton.mp new, uncontrolled] at versioned
      cases versioned
  case versionResource =>
    intro version member
    rcases consistent.versionResource version member with ⟨row, listed, rest⟩
    exact ⟨row, grows.resources row listed, rest⟩
  case vhrResource =>
    intro vhr member
    rcases consistent.vhrResource vhr member with ⟨row, listed, rest⟩
    exact ⟨row, grows.resources row listed, rest⟩
  case vcrResource =>
    intro vcr member
    rcases consistent.vcrResource vcr member with ⟨row, listed, rest⟩
    exact ⟨row, grows.resources row listed, rest⟩
  case awaits =>
    intro vcr member awaited
    exact (consistent.awaits vcr member awaited).frame rfl
      fun vhr listed _ => listed
  case inStep =>
    intro vcr member settled
    exact (consistent.inStep vcr member settled).frame rfl
      fun vhr listed _ => listed
  case versionsKey => exact consistent.versionsKey
  case vhrsKey => exact consistent.vhrsKey
  case vcrsKey => exact consistent.vcrsKey
  case vcrsVhr => exact consistent.vcrsVhr
  case vhrVcr => exact consistent.vhrVcr
  case versionVcr => exact consistent.versionVcr
  case awaitingVcr => exact consistent.awaitingVcr
  case numbered => exact consistent.numbered

theorem Consistent.sabridgeMkcolWParents
    (consistent : Consistent tables awaiting)
    (missing : Nat) :
    Consistent (sabridgeMkcolWParents tables missing) awaiting ∧
      Grows tables (sabridgeMkcolWParents tables missing) := by
  induction missing generalizing tables with
  | zero => exact ⟨consistent, Grows.refl tables⟩
  | succ missing induction =>
      have uncontrolled : isVersioned .collection = false := rfl
      have created := consistent.dbmsInsertResource uncontrolled
      have later := induction created
      exact ⟨later.1, (grows_dbmsInsertResource _ _).trans later.2⟩

/-- A new type of an old resource and a new resource come in either order. -/
theorem dbmsInsertResource_updateType
    {serialno : Id}
    (old : serialno < tables.nextId)
    (newType resourcetype : ResourceType) :
    (dbmsInsertResource (updateType tables serialno newType) resourcetype).1 =
      updateType (dbmsInsertResource tables resourcetype).1 serialno
        newType := by
  have other : tables.nextId ≠ serialno := (Int.ne_of_lt old).symm
  simp [dbmsInsertResource, updateType, other]

theorem sabridgeMkcolWParents_updateType
    {serialno : Id}
    (old : serialno < tables.nextId)
    (newType : ResourceType)
    (missing : Nat) :
    sabridgeMkcolWParents (updateType tables serialno newType) missing =
      updateType (sabridgeMkcolWParents tables missing) serialno newType := by
  induction missing generalizing tables with
  | zero => rfl
  | succ missing induction =>
      have next : serialno < (dbmsInsertResource tables .collection).1.nextId :=
        Int.lt_trans old (Int.lt_succ _)
      show sabridgeMkcolWParents
        (dbmsInsertResource (updateType tables serialno newType)
          .collection).1 missing = _
      rw [dbmsInsertResource_updateType old, induction next]
      rfl

/-! ## A new history -/

/-- The rows of a resource that comes under version control. -/
def controlledTables (tables : VersionTables) (newType : ResourceType)
    (versions : List Version) (vcr : Vcr) (rootVersionId : Id) :
    VersionTables :=
  { updateType tables vcr.resourceId newType with
    versions := tables.versions ++ versions
    vhrs := tables.vhrs ++ [⟨vcr.vhrId, rootVersionId⟩]
    vcrs := tables.vcrs ++ [vcr] }

/-- What `sabridge_vsn_control` knows of the ids it puts in these rows. -/
structure NewHistory (tables : VersionTables) (resourcetype : ResourceType)
    (versions : List Version) (vcr : Vcr) : Prop where
  resource : (vcr.resourceId, resourcetype) ∈ tables.resources
  controllable : resourcetype = .resource ∨ resourcetype = .collection
  vhr : vcr.vhrId ∈ tables.resources.map Prod.fst
  vhrFresh : vcr.vhrId ∉ tables.vhrs.map Vhr.resourceId
  single : versions.length ≤ 1
  version : ∀ version ∈ versions,
    version.number = 1 ∧ version.vcrId = vcr.resourceId ∧
      version.vhrId = vcr.vhrId ∧
      version.resourceId ∉ tables.versions.map Version.resourceId ∧
      ((version.resourceId, .version) ∈ tables.resources ∨
        (version.resourceId, .collectionVersion) ∈ tables.resources)

/-- The history of a resource under version control is a row. -/
theorem Consistent.vhr_mem
    (consistent : Consistent tables awaiting)
    {vcr : Vcr}
    (member : vcr ∈ tables.vcrs) :
    vcr.vhrId ∈ tables.vhrs.map Vhr.resourceId := by
  by_cases awaited : vcr.resourceId ∈ awaiting
  · have root := (consistent.awaits vcr member awaited).root
    exact List.mem_map.mpr ⟨_, root, rfl⟩
  · rcases (consistent.inStep vcr member awaited).root with
      ⟨version, _, _, root⟩
    exact List.mem_map.mpr ⟨_, root, rfl⟩

theorem mem_updateType
    {serialno : Id}
    {newType : ResourceType}
    {row : Id × ResourceType}
    (listed : row ∈ tables.resources)
    (other : row.1 ≠ serialno) :
    row ∈ (updateType tables serialno newType).resources := by
  apply List.mem_map.mpr
  exact ⟨row, listed, by simp [other]⟩

theorem mem_updateType_self
    {serialno : Id}
    {resourcetype newType : ResourceType}
    (listed : (serialno, resourcetype) ∈ tables.resources) :
    (serialno, newType) ∈
      (updateType tables serialno newType).resources := by
  apply List.mem_map.mpr
  exact ⟨_, listed, by simp⟩

variable {resourcetype newType : ResourceType} {versions : List Version}
  {vcr : Vcr} {rootVersionId : Id}

/-- A resource that is not under version control has no row. -/
theorem Consistent.ne_of_uncontrolled
    (consistent : Consistent tables awaiting)
    {serialno : Id}
    (listed : (serialno, resourcetype) ∈ tables.resources)
    (uncontrolled : isVersioned resourcetype = false)
    {other : Vcr}
    (member : other ∈ tables.vcrs) :
    other.resourceId ≠ serialno := by
  intro same
  rcases consistent.vcrResource other member with
    ⟨row, otherListed, rowId, versioned⟩
  have equal : row = (serialno, resourcetype) :=
    consistent.resource_unique otherListed listed (rowId.trans same)
  rw [equal, uncontrolled] at versioned
  cases versioned

theorem NewHistory.uncontrolled
    (new : NewHistory tables resourcetype versions vcr) :
    isVersioned resourcetype = false := by
  rcases new.controllable with controllable | controllable
  · rw [controllable]
    rfl
  · rw [controllable]
    rfl

theorem NewHistory.versionsOf_self
    (consistent : Consistent tables awaiting)
    (new : NewHistory tables resourcetype versions vcr) :
    versionsOf (controlledTables tables newType versions vcr rootVersionId)
      vcr.vhrId = versions := by
  show ((tables.versions ++ versions).filter
    fun version => version.vhrId == vcr.vhrId) = versions
  rw [List.filter_append]
  have old : (tables.versions.filter
      fun version => version.vhrId == vcr.vhrId) = [] := by
    rw [List.filter_eq_nil_iff]
    intro version member same
    rw [beq_iff_eq] at same
    rcases consistent.versionVcr version member with
      ⟨other, otherMember, _, sameVhr⟩
    apply new.vhrFresh
    rw [← same, ← sameVhr]
    exact consistent.vhr_mem otherMember
  have own : (versions.filter
      fun version => version.vhrId == vcr.vhrId) = versions := by
    rw [List.filter_eq_self]
    intro version member
    rw [beq_iff_eq]
    exact (new.version version member).2.2.1
  rw [old, own, List.nil_append]

theorem NewHistory.versionsOf_other
    (new : NewHistory tables resourcetype versions vcr)
    {vhrId : Id}
    (other : vhrId ≠ vcr.vhrId) :
    versionsOf (controlledTables tables newType versions vcr rootVersionId)
      vhrId = versionsOf tables vhrId := by
  show ((tables.versions ++ versions).filter
    fun version => version.vhrId == vhrId) = _
  rw [List.filter_append]
  have own : (versions.filter
      fun version => version.vhrId == vhrId) = [] := by
    rw [List.filter_eq_nil_iff]
    intro version member same
    rw [beq_iff_eq, (new.version version member).2.2.1] at same
    exact other same.symm
  rw [own, List.append_nil]
  rfl

theorem NewHistory.vhrId_ne
    (consistent : Consistent tables awaiting)
    (new : NewHistory tables resourcetype versions vcr)
    {other : Vcr}
    (member : other ∈ tables.vcrs) :
    other.vhrId ≠ vcr.vhrId := by
  intro same
  apply new.vhrFresh
  rw [← same]
  exact consistent.vhr_mem member

/-- The row of a resource that comes under version control. -/
theorem Consistent.newHistory
    (consistent : Consistent tables awaiting)
    (new : NewHistory tables resourcetype versions vcr)
    (versioned : isVersioned newType = true)
    {awaitingNext : List Id}
    (others : ∀ id, id ≠ vcr.resourceId →
      (id ∈ awaitingNext ↔ id ∈ awaiting))
    (awaits : vcr.resourceId ∈ awaitingNext →
      AwaitsCheckin (controlledTables tables newType versions vcr
        rootVersionId) vcr)
    (inStep : vcr.resourceId ∉ awaitingNext →
      InStep (controlledTables tables newType versions vcr
        rootVersionId) vcr) :
    Consistent (controlledTables tables newType versions vcr rootVersionId)
      awaitingNext := by
  have differs : ∀ other ∈ tables.vcrs, other.resourceId ≠ vcr.resourceId :=
    fun other member =>
      consistent.ne_of_uncontrolled new.resource new.uncontrolled member
  have kept : ∀ row ∈ tables.resources, row.1 ≠ vcr.resourceId →
      row ∈ (updateType tables vcr.resourceId newType).resources :=
    fun row listed other => mem_updateType listed other
  have versionsOfOther : ∀ other ∈ tables.vcrs,
      versionsOf (controlledTables tables newType versions
        vcr rootVersionId) other.vhrId = versionsOf tables other.vhrId :=
    fun other member =>
      new.versionsOf_other (new.vhrId_ne consistent member)
  have vhrsKept : ∀ vhr ∈ tables.vhrs,
      vhr ∈ (controlledTables tables newType versions vcr
        rootVersionId).vhrs :=
    fun vhr member => List.mem_append_left _ member
  have sameKeys : ((updateType tables vcr.resourceId newType).resources.map
      Prod.fst) = tables.resources.map Prod.fst :=
    Sql.map_key_assign _ (fun row => (row.1, newType)) (fun _ => rfl) _
  constructor
  case resourcesPkey =>
    show ((updateType tables vcr.resourceId newType).resources.map
      Prod.fst).Nodup
    rw [sameKeys]
    exact consistent.resourcesPkey
  case sequence =>
    intro row listed
    rcases List.mem_map.mp listed with ⟨old, oldListed, rfl⟩
    have bounds : 0 < old.1 ∧ old.1 < tables.nextId :=
      consistent.sequence old oldListed
    by_cases self : old.1 = vcr.resourceId
    · rw [if_pos self]
      exact bounds
    · rw [if_neg self]
      exact bounds
  case nextPositive => exact consistent.nextPositive
  case versionsKey =>
    show ((tables.versions ++ versions).map Version.resourceId).Nodup
    rw [List.map_append, List.nodup_append]
    refine ⟨consistent.versionsKey, ?_, ?_⟩
    · match versions, new.single with
      | [], _ => exact List.nodup_nil
      | [_], _ => exact List.nodup_singleton _
    · intro id member other otherMember same
      rcases List.mem_map.mp otherMember with ⟨version, listed, rfl⟩
      rw [same] at member
      exact (new.version version listed).2.2.2.1 member
  case vhrsKey =>
    show ((tables.vhrs ++ [(⟨vcr.vhrId, rootVersionId⟩ : Vhr)]).map
      Vhr.resourceId).Nodup
    rw [List.map_append, List.nodup_append]
    refine ⟨consistent.vhrsKey, List.nodup_singleton _, ?_⟩
    intro id member other otherMember same
    rw [List.map_singleton, List.mem_singleton] at otherMember
    rw [same, otherMember] at member
    exact new.vhrFresh member
  case vcrsKey =>
    show ((tables.vcrs ++ [vcr]).map Vcr.resourceId).Nodup
    rw [List.map_append, List.nodup_append]
    refine ⟨consistent.vcrsKey, List.nodup_singleton _, ?_⟩
    intro id member other otherMember same
    rw [List.map_singleton, List.mem_singleton] at otherMember
    rcases List.mem_map.mp member with ⟨row, listed, rfl⟩
    exact differs row listed (same.trans otherMember)
  case vcrsVhr =>
    show ((tables.vcrs ++ [vcr]).map Vcr.vhrId).Nodup
    rw [List.map_append, List.nodup_append]
    refine ⟨consistent.vcrsVhr, List.nodup_singleton _, ?_⟩
    intro id member other otherMember same
    rw [List.map_singleton, List.mem_singleton] at otherMember
    rcases List.mem_map.mp member with ⟨row, listed, rfl⟩
    exact new.vhrId_ne consistent listed (same.trans otherMember)
  case versionResource =>
    have notVersion : ∀ row ∈ tables.resources,
        row.2 = .version ∨ row.2 = .collectionVersion →
          row.1 ≠ vcr.resourceId := by
      intro row listed isVersion same
      have equal : row = (vcr.resourceId, resourcetype) :=
        consistent.resource_unique listed new.resource same
      rw [equal] at isVersion
      rcases new.controllable with controllable | controllable
      · simp [controllable] at isVersion
      · simp [controllable] at isVersion
    intro version member
    rcases List.mem_append.mp member with member | member
    · rcases consistent.versionResource version member with
        ⟨row, listed, rowId, isVersion⟩
      exact ⟨row, kept row listed (notVersion row listed isVersion), rowId,
        isVersion⟩
    · rcases (new.version version member).2.2.2.2 with listed | listed
      · exact ⟨_, kept _ listed (notVersion _ listed (Or.inl rfl)), rfl,
          Or.inl rfl⟩
      · exact ⟨_, kept _ listed (notVersion _ listed (Or.inr rfl)), rfl,
          Or.inr rfl⟩
  case vhrResource =>
    have some_row : ∀ id ∈ tables.resources.map Prod.fst,
        ∃ row ∈ (updateType tables vcr.resourceId newType).resources,
          row.1 = id := by
      intro id member
      rw [← sameKeys] at member
      exact List.mem_map.mp member
    intro vhr member
    rcases List.mem_append.mp member with member | member
    · rcases consistent.vhrResource vhr member with ⟨row, listed, rowId⟩
      exact some_row _ (List.mem_map.mpr ⟨row, listed, rowId⟩)
    · rw [List.mem_singleton.mp member]
      exact some_row _ new.vhr
  case vcrResource =>
    intro other member
    rcases List.mem_append.mp member with member | member
    · rcases consistent.vcrResource other member with
        ⟨row, listed, rowId, rest⟩
      have other' : row.1 ≠ vcr.resourceId := by
        rw [rowId]
        exact differs other member
      exact ⟨row, kept row listed other', rowId, rest⟩
    · rw [List.mem_singleton.mp member]
      exact ⟨_, mem_updateType_self new.resource, rfl, versioned⟩
  case controlled =>
    intro row listed isControlled
    rcases List.mem_map.mp listed with ⟨old, oldListed, rfl⟩
    by_cases self : old.1 = vcr.resourceId
    · exact ⟨vcr, List.mem_append_right _ (List.mem_singleton.mpr rfl), by
        simp [self]⟩
    · rw [if_neg self] at isControlled ⊢
      rcases consistent.controlled old oldListed isControlled with
        ⟨other, member, otherId⟩
      exact ⟨other, List.mem_append_left _ member, otherId⟩
  case vhrVcr =>
    intro vhr member
    rcases List.mem_append.mp member with member | member
    · rcases consistent.vhrVcr vhr member with ⟨other, otherMember, same⟩
      exact ⟨other, List.mem_append_left _ otherMember, same⟩
    · rw [List.mem_singleton.mp member]
      exact ⟨vcr, List.mem_append_right _ (List.mem_singleton.mpr rfl), rfl⟩
  case versionVcr =>
    intro version member
    rcases List.mem_append.mp member with member | member
    · rcases consistent.versionVcr version member with
        ⟨other, otherMember, same⟩
      exact ⟨other, List.mem_append_left _ otherMember, same⟩
    · have facts := new.version version member
      exact ⟨vcr, List.mem_append_right _ (List.mem_singleton.mpr rfl),
        facts.2.1.symm, facts.2.2.1.symm⟩
  case awaitingVcr =>
    intro id awaited
    by_cases self : id = vcr.resourceId
    · exact ⟨vcr, List.mem_append_right _ (List.mem_singleton.mpr rfl),
        self.symm⟩
    · rcases consistent.awaitingVcr id ((others id self).mp awaited) with
        ⟨other, member, otherId⟩
      exact ⟨other, List.mem_append_left _ member, otherId⟩
  case numbered =>
    intro other member
    rcases List.mem_append.mp member with member | member
    · exact (consistent.numbered other member).frame
        (versionsOfOther other member)
    · rw [List.mem_singleton.mp member]
      unfold Numbered
      rw [new.versionsOf_self consistent]
      match versions, new.single, new.version with
      | [], _, _ => exact List.Perm.refl _
      | [version], _, facts =>
          have number := (facts version (List.mem_singleton.mpr rfl)).1
          rw [List.map_singleton, number]
          exact List.Perm.refl _
  case awaits =>
    intro other member awaited
    rcases List.mem_append.mp member with member | member
    · apply (consistent.awaits other member
        ((others _ (differs other member)).mp awaited)).frame
      · exact versionsOfOther other member
      · exact fun vhr listed _ => vhrsKept vhr listed
    · rw [List.mem_singleton.mp member] at awaited ⊢
      exact awaits awaited
  case inStep =>
    intro other member settled
    rcases List.mem_append.mp member with member | member
    · apply (consistent.inStep other member fun awaited =>
        settled ((others _ (differs other member)).mpr awaited)).frame
      · exact versionsOfOther other member
      · exact fun vhr listed _ => vhrsKept vhr listed
    · rw [List.mem_singleton.mp member] at settled ⊢
      exact inStep settled

/-! ## The row of a resource under version control -/

/-- A row after the UPDATE of `dbms_set_checkin_out`. -/
theorem mem_updateVcr
    {serialno checkedId : Id}
    {checkedState : CheckedState}
    {row : Vcr} :
    row ∈ (updateVcr tables serialno checkedState checkedId).vcrs ↔
      (row ∈ tables.vcrs ∧ row.resourceId ≠ serialno) ∨
        ∃ old ∈ tables.vcrs, old.resourceId = serialno ∧
          row = { old with
            checkedState := checkedState, checkedId := checkedId } := by
  show row ∈ tables.vcrs.map _ ↔ _
  rw [List.mem_map]
  constructor
  · rintro ⟨old, member, rfl⟩
    by_cases self : old.resourceId = serialno
    · exact Or.inr ⟨old, member, self, by simp [self]⟩
    · rw [if_neg self]
      exact Or.inl ⟨member, self⟩
  · rintro (⟨member, other⟩ | ⟨old, member, self, rfl⟩)
    · exact ⟨row, member, by simp [other]⟩
    · exact ⟨old, member, by simp [self]⟩

/-- Every row keeps its resource and its history. -/
theorem exists_updateVcr
    {serialno checkedId : Id}
    {checkedState : CheckedState}
    {old : Vcr}
    (member : old ∈ tables.vcrs) :
    ∃ row ∈ (updateVcr tables serialno checkedState checkedId).vcrs,
      row.resourceId = old.resourceId ∧ row.vhrId = old.vhrId := by
  by_cases self : old.resourceId = serialno
  · exact ⟨_, mem_updateVcr.mpr (Or.inr ⟨old, member, self, rfl⟩), rfl, rfl⟩
  · exact ⟨_, mem_updateVcr.mpr (Or.inl ⟨member, self⟩), rfl, rfl⟩

theorem exists_of_mem_updateVcr
    {serialno checkedId : Id}
    {checkedState : CheckedState}
    {row : Vcr}
    (member : row ∈ (updateVcr tables serialno checkedState checkedId).vcrs) :
    ∃ old ∈ tables.vcrs,
      row.resourceId = old.resourceId ∧ row.vhrId = old.vhrId := by
  rcases mem_updateVcr.mp member with ⟨same, _⟩ | ⟨old, same, _, rfl⟩
  · exact ⟨row, same, rfl, rfl⟩
  · exact ⟨old, same, rfl, rfl⟩

/-- A row that `dbms_set_checkin_out` assigns. -/
def assigned (checkedState : CheckedState) (checkedId : Id) (row : Vcr) :
    Vcr :=
  { row with checkedState := checkedState, checkedId := checkedId }

theorem updateVcr_keys
    (tables : VersionTables)
    (serialno checkedId : Id)
    (checkedState : CheckedState) :
    (updateVcr tables serialno checkedState checkedId).vcrs.map
        Vcr.resourceId = tables.vcrs.map Vcr.resourceId ∧
      (updateVcr tables serialno checkedState checkedId).vcrs.map
        Vcr.vhrId = tables.vcrs.map Vcr.vhrId :=
  ⟨Sql.map_key_assign _ (assigned checkedState checkedId) (fun _ => rfl) _,
    Sql.map_key_assign _ (assigned checkedState checkedId) (fun _ => rfl) _⟩

/-- Check-out and uncheckout keep the checked version. -/
theorem Consistent.updateVcr
    (consistent : Consistent tables awaiting)
    {vcr : Vcr}
    (member : vcr ∈ tables.vcrs)
    (checkedState : CheckedState) :
    Consistent (updateVcr tables vcr.resourceId checkedState vcr.checkedId)
      awaiting := by
  have keys := updateVcr_keys tables vcr.resourceId vcr.checkedId checkedState
  have sameRecord : ∀ row ∈ (DbmsDeltav.updateVcr tables vcr.resourceId
      checkedState vcr.checkedId).vcrs, ∃ old ∈ tables.vcrs,
        row.resourceId = old.resourceId ∧ row.vhrId = old.vhrId ∧
          row.checkedId = old.checkedId := by
    intro row listed
    rcases mem_updateVcr.mp listed with ⟨same, _⟩ | ⟨old, same, self, rfl⟩
    · exact ⟨row, same, rfl, rfl, rfl⟩
    · have equal : old = vcr := consistent.vcr_unique same member self
      exact ⟨old, same, rfl, rfl, by rw [equal]⟩
  constructor
  case resourcesPkey => exact consistent.resourcesPkey
  case sequence => exact consistent.sequence
  case nextPositive => exact consistent.nextPositive
  case versionsKey => exact consistent.versionsKey
  case vhrsKey => exact consistent.vhrsKey
  case versionResource => exact consistent.versionResource
  case vhrResource => exact consistent.vhrResource
  case vcrsKey =>
    rw [keys.1]
    exact consistent.vcrsKey
  case vcrsVhr =>
    rw [keys.2]
    exact consistent.vcrsVhr
  case vcrResource =>
    intro row listed
    rcases exists_of_mem_updateVcr listed with ⟨old, same, id, _⟩
    rw [id]
    exact consistent.vcrResource old same
  case controlled =>
    intro row listed versioned
    rcases consistent.controlled row listed versioned with ⟨old, same, id⟩
    rcases exists_updateVcr same with ⟨next, nextListed, nextId, _⟩
    exact ⟨next, nextListed, nextId.trans id⟩
  case vhrVcr =>
    intro vhr listed
    rcases consistent.vhrVcr vhr listed with ⟨old, same, id⟩
    rcases exists_updateVcr same with ⟨next, nextListed, _, nextVhr⟩
    exact ⟨next, nextListed, nextVhr.trans id⟩
  case versionVcr =>
    intro version listed
    rcases consistent.versionVcr version listed with ⟨old, same, id, vhr⟩
    rcases exists_updateVcr same with ⟨next, nextListed, nextId, nextVhr⟩
    exact ⟨next, nextListed, nextId.trans id, nextVhr.trans vhr⟩
  case awaitingVcr =>
    intro id awaited
    rcases consistent.awaitingVcr id awaited with ⟨old, same, oldId⟩
    rcases exists_updateVcr same with ⟨next, nextListed, nextId, _⟩
    exact ⟨next, nextListed, nextId.trans oldId⟩
  case numbered =>
    intro row listed
    rcases exists_of_mem_updateVcr listed with ⟨old, same, _, vhr⟩
    rw [vhr]
    exact consistent.numbered old same
  case awaits =>
    intro row listed awaited
    rcases sameRecord row listed with ⟨old, same, id, vhr, checked⟩
    rw [id] at awaited
    have awaits := consistent.awaits old same awaited
    exact
      { noVersion := vhr ▸ awaits.noVersion
        root := by
          rw [vhr, id]
          exact awaits.root
        checked := by
          rw [checked, id]
          exact awaits.checked }
  case inStep =>
    intro row listed settled
    rcases sameRecord row listed with ⟨old, same, id, vhr, checked⟩
    rw [id] at settled
    have inStep := consistent.inStep old same settled
    exact
      { root := by
          rw [vhr]
          exact inStep.root
        latest := by
          rw [vhr, checked]
          exact inStep.latest }

/-! ## A new version -/

/-- The rows after a check-in. -/
def checkedInTables (tables : VersionTables) (vcr : Vcr) (versionId : Id) :
    VersionTables :=
  { updateVcr tables vcr.resourceId .checkedIn versionId with
    versions := tables.versions ++
      [{ resourceId := versionId
         number := ((versionsOf tables vcr.vhrId).length : Int) + 1
         vcrId := vcr.resourceId
         vhrId := vcr.vhrId }]
    vhrs :=
      if (versionsOf tables vcr.vhrId).length = 0 then
        (dbmsUpdateVhr tables ⟨vcr.vhrId, versionId⟩).vhrs
      else tables.vhrs }

variable {versionId : Id}

theorem versionsOf_checkedInTables_self :
    versionsOf (checkedInTables tables vcr versionId) vcr.vhrId =
      versionsOf tables vcr.vhrId ++
        [{ resourceId := versionId
           number := ((versionsOf tables vcr.vhrId).length : Int) + 1
           vcrId := vcr.resourceId
           vhrId := vcr.vhrId }] := by
  show (tables.versions ++ _).filter _ = _
  rw [List.filter_append]
  congr 1
  simp

theorem versionsOf_checkedInTables_other
    {vhrId : Id}
    (other : vhrId ≠ vcr.vhrId) :
    versionsOf (checkedInTables tables vcr versionId) vhrId =
      versionsOf tables vhrId := by
  show (tables.versions ++ _).filter _ = _
  rw [List.filter_append]
  simp [other.symm, versionsOf]

/-- Only a first version becomes the root of its history. -/
theorem mem_checkedInTables_vhrs
    {vhr : Vhr}
    (member : vhr ∈ tables.vhrs)
    (kept : vhr.resourceId ≠ vcr.vhrId ∨
      (versionsOf tables vcr.vhrId).length ≠ 0) :
    vhr ∈ (checkedInTables tables vcr versionId).vhrs := by
  show vhr ∈ (if (versionsOf tables vcr.vhrId).length = 0 then
    (dbmsUpdateVhr tables ⟨vcr.vhrId, versionId⟩).vhrs else tables.vhrs)
  by_cases first : (versionsOf tables vcr.vhrId).length = 0
  · rw [if_pos first]
    have other := kept.resolve_right fun later => later first
    exact List.mem_map.mpr ⟨vhr, member, by simp [other]⟩
  · rw [if_neg first]
    exact member

theorem checkedInTables_vhrs_keys :
    (checkedInTables tables vcr versionId).vhrs.map Vhr.resourceId =
      tables.vhrs.map Vhr.resourceId := by
  show (if (versionsOf tables vcr.vhrId).length = 0 then
    (dbmsUpdateVhr tables ⟨vcr.vhrId, versionId⟩).vhrs
      else tables.vhrs).map Vhr.resourceId = _
  by_cases first : (versionsOf tables vcr.vhrId).length = 0
  · rw [if_pos first]
    show (tables.vhrs.map _).map _ = _
    rw [List.map_map]
    apply List.map_congr_left
    intro row _
    by_cases same : row.resourceId = vcr.vhrId
    · simp [same]
    · simp [same]
  · rw [if_neg first]

/-- The history of the resource that was checked in. -/
theorem Consistent.inStep_checkedIn
    (consistent : Consistent tables awaiting)
    (member : vcr ∈ tables.vcrs) :
    InStep (checkedInTables tables vcr versionId)
      (assigned .checkedIn versionId vcr) := by
  have versions : versionsOf (checkedInTables tables vcr versionId)
      vcr.vhrId = _ := versionsOf_checkedInTables_self
  constructor
  case root =>
    show ∃ version ∈ versionsOf (checkedInTables tables vcr versionId)
      vcr.vhrId, version.number = 1 ∧ _
    rw [versions]
    by_cases first : (versionsOf tables vcr.vhrId).length = 0
    · refine ⟨_, List.mem_append_right _ (List.mem_singleton.mpr rfl), ?_, ?_⟩
      · simp [first]
      · show _ ∈ (if (versionsOf tables vcr.vhrId).length = 0 then
          (dbmsUpdateVhr tables ⟨vcr.vhrId, versionId⟩).vhrs
            else tables.vhrs)
        rw [if_pos first]
        rcases List.mem_map.mp (consistent.vhr_mem member) with
          ⟨row, listed, rowId⟩
        exact List.mem_map.mpr ⟨row, listed, by simp [rowId, assigned]⟩
    · by_cases awaited : vcr.resourceId ∈ awaiting
      · have empty := (consistent.awaits vcr member awaited).noVersion
        rw [empty] at first
        exact absurd rfl first
      · rcases (consistent.inStep vcr member awaited).root with
          ⟨version, belongs, number, root⟩
        exact ⟨version, List.mem_append_left _ belongs, number,
          mem_checkedInTables_vhrs root (Or.inr first)⟩
  case latest =>
    show ∃ version ∈ versionsOf (checkedInTables tables vcr versionId)
      vcr.vhrId, version.number = ((versionsOf (checkedInTables tables vcr
        versionId) vcr.vhrId).length : Int) ∧ version.resourceId = versionId
    rw [versions]
    exact ⟨_, List.mem_append_right _ (List.mem_singleton.mpr rfl), by simp,
      rfl⟩

theorem Consistent.numbered_checkedIn
    (consistent : Consistent tables awaiting)
    (member : vcr ∈ tables.vcrs) :
    Numbered (checkedInTables tables vcr versionId) vcr.vhrId := by
  unfold Numbered
  rw [versionsOf_checkedInTables_self, List.map_append, List.length_append,
    List.length_singleton, numbers_succ]
  exact (consistent.numbered vcr member).append_right _

/-- A check-in: the resource no longer awaits one. -/
theorem Consistent.checkedIn
    (consistent : Consistent tables awaiting)
    (member : vcr ∈ tables.vcrs)
    {resourcetype : ResourceType}
    (listed : (versionId, resourcetype) ∈ tables.resources)
    (isVersion : resourcetype = .version ∨ resourcetype = .collectionVersion)
    (fresh : versionId ∉ tables.versions.map Version.resourceId) :
    Consistent (checkedInTables tables vcr versionId)
      (awaiting.filter fun id => id != vcr.resourceId) := by
  have keys := updateVcr_keys tables vcr.resourceId versionId .checkedIn
  have sameKeys : (checkedInTables tables vcr versionId).vhrs.map
      Vhr.resourceId = tables.vhrs.map Vhr.resourceId :=
    checkedInTables_vhrs_keys
  have otherVhr : ∀ row ∈ tables.vcrs, row.resourceId ≠ vcr.resourceId →
      row.vhrId ≠ vcr.vhrId := by
    intro row rowListed other same
    have equal := consistent.vcr_unique_of_vhrId rowListed member same
    exact other (by rw [equal])
  constructor
  case resourcesPkey => exact consistent.resourcesPkey
  case sequence => exact consistent.sequence
  case nextPositive => exact consistent.nextPositive
  case versionsKey =>
    show ((tables.versions ++ _).map Version.resourceId).Nodup
    rw [List.map_append, List.map_singleton, List.nodup_append]
    refine ⟨consistent.versionsKey, List.nodup_singleton _, ?_⟩
    intro id idListed other otherListed same
    rw [List.mem_singleton] at otherListed
    rw [same, otherListed] at idListed
    exact fresh idListed
  case vhrsKey =>
    rw [sameKeys]
    exact consistent.vhrsKey
  case vcrsKey =>
    exact keys.1.symm ▸ consistent.vcrsKey
  case vcrsVhr =>
    exact keys.2.symm ▸ consistent.vcrsVhr
  case versionResource =>
    intro version versionListed
    rcases List.mem_append.mp versionListed with old | new
    · exact consistent.versionResource version old
    · rw [List.mem_singleton.mp new]
      exact ⟨_, listed, rfl, isVersion⟩
  case vhrResource =>
    intro vhr vhrListed
    have key : vhr.resourceId ∈ tables.vhrs.map Vhr.resourceId := by
      rw [← sameKeys]
      exact List.mem_map_of_mem vhrListed
    rcases List.mem_map.mp key with ⟨old, oldListed, oldId⟩
    rw [← oldId]
    exact consistent.vhrResource old oldListed
  case vcrResource =>
    intro row rowListed
    rcases exists_of_mem_updateVcr rowListed with ⟨old, same, id, _⟩
    rw [id]
    exact consistent.vcrResource old same
  case controlled =>
    intro row rowListed versioned
    rcases consistent.controlled row rowListed versioned with ⟨old, same, id⟩
    rcases exists_updateVcr same with ⟨next, nextListed, nextId, _⟩
    exact ⟨next, nextListed, nextId.trans id⟩
  case vhrVcr =>
    intro vhr vhrListed
    have key : vhr.resourceId ∈ tables.vhrs.map Vhr.resourceId := by
      rw [← sameKeys]
      exact List.mem_map_of_mem vhrListed
    rcases List.mem_map.mp key with ⟨oldVhr, oldListed, oldId⟩
    rcases consistent.vhrVcr oldVhr oldListed with ⟨old, same, id⟩
    rcases exists_updateVcr same with ⟨next, nextListed, _, nextVhr⟩
    exact ⟨next, nextListed, (nextVhr.trans id).trans oldId⟩
  case versionVcr =>
    intro version versionListed
    rcases List.mem_append.mp versionListed with old | new
    · rcases consistent.versionVcr version old with ⟨row, same, id, vhr⟩
      rcases exists_updateVcr same with ⟨next, nextListed, nextId, nextVhr⟩
      exact ⟨next, nextListed, nextId.trans id, nextVhr.trans vhr⟩
    · rw [List.mem_singleton.mp new]
      exact exists_updateVcr member
  case awaitingVcr =>
    intro id awaited
    rcases consistent.awaitingVcr id (List.mem_filter.mp awaited).1 with
      ⟨old, same, oldId⟩
    rcases exists_updateVcr same with ⟨next, nextListed, nextId, _⟩
    exact ⟨next, nextListed, nextId.trans oldId⟩
  case numbered =>
    intro row rowListed
    rcases mem_updateVcr.mp rowListed with ⟨same, other⟩ | ⟨old, same, self, rfl⟩
    · exact (consistent.numbered row same).frame
        (versionsOf_checkedInTables_other (otherVhr row same other))
    · have equal : old = vcr := consistent.vcr_unique same member self
      rw [equal]
      exact consistent.numbered_checkedIn member
  case awaits =>
    intro row rowListed awaited
    rw [List.mem_filter, bne_iff_ne] at awaited
    rcases mem_updateVcr.mp rowListed with ⟨same, other⟩ | ⟨old, same, self, rfl⟩
    · have otherHistory := otherVhr row same other
      apply (consistent.awaits row same awaited.1).frame
      · exact versionsOf_checkedInTables_other otherHistory
      · intro vhr vhrListed id
        exact mem_checkedInTables_vhrs vhrListed
          (Or.inl (id ▸ otherHistory))
    · exact absurd self awaited.2
  case inStep =>
    intro row rowListed settled
    rcases mem_updateVcr.mp rowListed with ⟨same, other⟩ | ⟨old, same, self, rfl⟩
    · have otherHistory := otherVhr row same other
      have before : row.resourceId ∉ awaiting := fun awaited =>
        settled (List.mem_filter.mpr ⟨awaited, by simpa using other⟩)
      apply (consistent.inStep row same before).frame
      · exact versionsOf_checkedInTables_other otherHistory
      · intro vhr vhrListed id
        exact mem_checkedInTables_vhrs vhrListed
          (Or.inl (id ▸ otherHistory))
    · have equal : old = vcr := consistent.vcr_unique same member self
      rw [equal]
      exact consistent.inStep_checkedIn member

/-! ## Memory -/

/-- A `dav_resource` that says what the tables say of its resource. -/
structure Agrees (tables : VersionTables) (resource : DavResource) :
    Prop where
  row : ∃ resourcetype,
    (resource.dbR.serialno, resourcetype) ∈ tables.resources ∧
      resource.dbR.resourcetype = some resourcetype ∧
      resource.present = (resourcetype != .lockNull) ∧
      resource.versioned = isVersioned resourcetype ∧
      (resource.regular = true → isRegular resourcetype = true)
  record : ∀ vcr ∈ tables.vcrs, vcr.resourceId = resource.dbR.serialno →
    resource.dbR.checkedId = vcr.checkedId ∧
      resource.dbR.vhrId = vcr.vhrId ∧
      resource.dbR.vrNum = (versionsOf tables vcr.vhrId).length
  uncontrolled : (∀ vcr ∈ tables.vcrs,
      vcr.resourceId ≠ resource.dbR.serialno) →
    resource.dbR.checkedState = .notVersioned

/-- The rows of the other resources are as they were. -/
structure KeepsOthers (serialno : Id) (tables grown : VersionTables) :
    Prop where
  resources : ∀ row ∈ tables.resources, row.1 ≠ serialno →
    row ∈ grown.resources
  vcrs : ∀ vcr, vcr.resourceId ≠ serialno →
    (vcr ∈ grown.vcrs ↔ vcr ∈ tables.vcrs)
  versions : ∀ vcr ∈ tables.vcrs, vcr.resourceId ≠ serialno →
    versionsOf grown vcr.vhrId = versionsOf tables vcr.vhrId

theorem KeepsOthers.trans
    {serialno : Id}
    {middle grown : VersionTables}
    (first : KeepsOthers serialno tables middle)
    (second : KeepsOthers serialno middle grown) :
    KeepsOthers serialno tables grown where
  resources := fun row listed other =>
    second.resources row (first.resources row listed other) other
  vcrs := fun vcr other =>
    (second.vcrs vcr other).trans (first.vcrs vcr other)
  versions := fun vcr member other =>
    (second.versions vcr ((first.vcrs vcr other).mpr member) other).trans
      (first.versions vcr member other)

theorem Grows.keepsOthers
    {grown : VersionTables}
    (grows : Grows tables grown)
    (serialno : Id) :
    KeepsOthers serialno tables grown where
  resources := fun row listed _ => grows.resources row listed
  vcrs := fun vcr _ => by rw [grows.vcrs]
  versions := fun vcr _ _ => grows.versionsOf vcr.vhrId

/-- Memory of another resource still agrees with the tables. -/
theorem Agrees.frame
    {serialno : Id}
    {grown : VersionTables}
    {resource : DavResource}
    (agrees : Agrees tables resource)
    (keeps : KeepsOthers serialno tables grown)
    (other : resource.dbR.serialno ≠ serialno) :
    Agrees grown resource where
  row := by
    rcases agrees.row with ⟨resourcetype, listed, rest⟩
    exact ⟨resourcetype, keeps.resources _ listed other, rest⟩
  record := by
    intro vcr member own
    have otherVcr : vcr.resourceId ≠ serialno := own ▸ other
    have before := (keeps.vcrs vcr otherVcr).mp member
    rw [keeps.versions vcr before otherVcr]
    exact agrees.record vcr before own
  uncontrolled := by
    intro noRow
    apply agrees.uncontrolled
    intro vcr member own
    have otherVcr : vcr.resourceId ≠ serialno := own ▸ other
    exact noRow vcr ((keeps.vcrs vcr otherVcr).mpr member) own

/-- What a call on a resource establishes. -/
structure Called (tables : VersionTables) (awaiting : List Id)
    (serialno : Id) (result : VersionTables × DavResource) : Prop where
  consistent : Consistent result.1 awaiting
  agrees : Agrees result.1 result.2
  keeps : KeepsOthers result.2.dbR.serialno tables result.1
  same : result.2.dbR.serialno = serialno

theorem keepsOthers_updateVcr
    (tables : VersionTables)
    (serialno checkedId : Id)
    (checkedState : CheckedState) :
    KeepsOthers serialno tables
      (updateVcr tables serialno checkedState checkedId) where
  resources := fun row listed _ => listed
  vcrs := by
    intro vcr other
    rw [mem_updateVcr]
    constructor
    · rintro (⟨member, _⟩ | ⟨old, _, self, rfl⟩)
      · exact member
      · exact absurd self other
    · intro member
      exact Or.inl ⟨member, other⟩
  versions := fun vcr _ _ => rfl

theorem Consistent.keepsOthers_checkedInTables
    (consistent : Consistent tables awaiting)
    (member : vcr ∈ tables.vcrs) :
    KeepsOthers vcr.resourceId tables
      (checkedInTables tables vcr versionId) where
  resources := fun row listed _ => listed
  vcrs := (keepsOthers_updateVcr tables vcr.resourceId versionId
    .checkedIn).vcrs
  versions := by
    intro row listed other
    apply versionsOf_checkedInTables_other
    intro same
    exact other (by
      rw [consistent.vcr_unique_of_vhrId listed member same])

theorem NewHistory.keepsOthers
    (consistent : Consistent tables awaiting)
    (new : NewHistory tables resourcetype versions vcr) :
    KeepsOthers vcr.resourceId tables
      (controlledTables tables newType versions vcr rootVersionId) where
  resources := fun row listed other => mem_updateType listed other
  vcrs := by
    intro row other
    show row ∈ tables.vcrs ++ [vcr] ↔ row ∈ tables.vcrs
    rw [List.mem_append, List.mem_singleton]
    constructor
    · rintro (member | same)
      · exact member
      · exact absurd (by rw [same]) other
    · exact Or.inl
  versions := fun row listed _ =>
    new.versionsOf_other (new.vhrId_ne consistent listed)

/-! ## The calls -/

/-- A resource in memory that is not unversioned has a row. -/
theorem Agrees.exists_vcr
    {resource : DavResource}
    (agrees : Agrees tables resource)
    (versioned : resource.dbR.checkedState ≠ .notVersioned) :
    ∃ vcr ∈ tables.vcrs, vcr.resourceId = resource.dbR.serialno := by
  by_contra none
  apply versioned
  apply agrees.uncontrolled
  intro vcr member own
  exact none ⟨vcr, member, own⟩

/-- Ids of resources are no null ids. -/
theorem Consistent.ne_zero
    (consistent : Consistent tables awaiting)
    {id : Id}
    (listed : id ∈ tables.resources.map Prod.fst) :
    id ≠ 0 := by
  rcases List.mem_map.mp listed with ⟨row, rowListed, rfl⟩
  exact (Int.ne_of_lt (consistent.sequence row rowListed).1).symm

theorem Consistent.checkedId_ne_zero
    (consistent : Consistent tables awaiting)
    {vcr : Vcr}
    (member : vcr ∈ tables.vcrs) :
    vcr.checkedId ≠ 0 := by
  apply consistent.ne_zero
  by_cases awaited : vcr.resourceId ∈ awaiting
  · rw [(consistent.awaits vcr member awaited).checked]
    rcases consistent.vcrResource vcr member with ⟨row, listed, rowId, _⟩
    exact List.mem_map.mpr ⟨row, listed, rowId⟩
  · rcases (consistent.inStep vcr member awaited).latest with
      ⟨version, belongs, _, checked⟩
    rcases consistent.versionResource version (mem_versionsOf.mp belongs).1
      with ⟨row, listed, rowId, _⟩
    exact List.mem_map.mpr ⟨row, listed, rowId.trans checked⟩

/-- `dbms_set_checkin_out` with the number that the resource has. -/
theorem Consistent.dbmsSetCheckinOut_same
    (consistent : Consistent tables awaiting)
    {resource : DavResource}
    (agrees : Agrees tables resource)
    (versioned : resource.dbR.checkedState ≠ .notVersioned)
    (checkedState : CheckedState)
    {result : VersionTables × DavReposResource}
    (succeeds : dbmsSetCheckinOut tables resource.dbR checkedState
      resource.dbR.vrNum = .ok result)
    (regular working : Bool)
    (regularOnly : regular = true → resource.regular = true ∨
      resource.versioned = true) :
    Called tables awaiting resource.dbR.serialno (result.1,
      { resource with
        dbR := result.2, regular := regular, working := working }) := by
  rcases agrees.exists_vcr versioned with ⟨vcr, member, own⟩
  rcases agrees.record vcr member own with ⟨checked, vhr, number⟩
  have nonzero : resource.dbR.checkedId ≠ 0 := by
    rw [checked]
    exact consistent.checkedId_ne_zero member
  have both : resource.dbR.vrNum = resource.dbR.vrNum ∧
      resource.dbR.checkedId ≠ 0 := ⟨rfl, nonzero⟩
  unfold dbmsSetCheckinOut at succeeds
  rw [if_pos both] at succeeds
  cases succeeds
  have updated := consistent.updateVcr member checkedState
  rw [own, ← checked] at updated
  constructor
  case consistent => exact updated
  case keeps => exact keepsOthers_updateVcr _ _ _ _
  case same => rfl
  case agrees =>
    constructor
    case row =>
      rcases agrees.row with
        ⟨resourcetype, listed, typed, present, isControlled, isRegular⟩
      refine ⟨resourcetype, listed, typed, present, isControlled, ?_⟩
      intro regularNext
      rcases regularOnly regularNext with before | controlled
      · exact isRegular before
      · rw [isControlled] at controlled
        simp [DbmsDeltav.isRegular, controlled]
    case record =>
      intro row listed rowOwn
      have same : row.checkedId = resource.dbR.checkedId ∧
          row.vhrId = vcr.vhrId := by
        rcases mem_updateVcr.mp listed with ⟨_, other⟩ | ⟨old, same, self, rfl⟩
        · exact absurd rowOwn other
        · have equal : old = vcr :=
            consistent.vcr_unique same member (self.trans own.symm)
          rw [equal]
          exact ⟨rfl, rfl⟩
      rw [same.1, same.2]
      exact ⟨rfl, vhr, number⟩
    case uncontrolled =>
      intro noRow
      rcases exists_updateVcr member with ⟨row, listed, rowId, _⟩
      exact absurd (rowId.trans own) (noRow row listed)

theorem Consistent.davReposCheckout
    (consistent : Consistent tables awaiting)
    {resource : DavResource}
    (agrees : Agrees tables resource)
    {result : VersionTables × DavResource}
    (succeeds : davReposCheckout tables resource = .ok result) :
    Called tables awaiting resource.dbR.serialno result := by
  rcases ite_error_eq_ok.mp succeeds with ⟨checkedIn, stored⟩
  rcases bind_eq_ok.mp stored with ⟨checked, assigned, returned⟩
  cases returned
  apply consistent.dbmsSetCheckinOut_same agrees _ .checkedOut assigned
  · exact fun regular => Or.inl regular
  · rw [not_not.mp checkedIn]
    intro same
    cases same

theorem Consistent.davReposUncheckout
    (consistent : Consistent tables awaiting)
    {resource : DavResource}
    (agrees : Agrees tables resource)
    {result : VersionTables × DavResource}
    (succeeds : davReposUncheckout tables resource = .ok result) :
    Called tables awaiting resource.dbR.serialno result := by
  rcases ite_error_eq_ok.mp succeeds with ⟨checkedOut, restored⟩
  rcases ite_error_eq_ok.mp restored with ⟨_, stored⟩
  rcases bind_eq_ok.mp stored with ⟨checked, assigned, returned⟩
  cases returned
  have versioned : resource.dbR.checkedState ≠ .notVersioned := by
    rw [not_not.mp checkedOut]
    intro same
    cases same
  apply consistent.dbmsSetCheckinOut_same agrees versioned .checkedIn assigned
  intro _
  rcases agrees.exists_vcr versioned with ⟨vcr, member, own⟩
  rcases agrees.row with ⟨resourcetype, listed, _, _, isControlled, _⟩
  rcases consistent.vcrResource vcr member with ⟨row, rowListed, rowId, rest⟩
  have equal : row = (resource.dbR.serialno, resourcetype) :=
    consistent.resource_unique rowListed listed (rowId.trans own)
  rw [equal] at rest
  exact Or.inr (isControlled.trans rest)

/-- The resource of a new version. -/
theorem sabridgeMkNewVersion_eq
    {r : DavReposResource}
    {resourcetype : ResourceType}
    (typed : r.resourcetype = some resourcetype)
    (versioned : isVersioned resourcetype = true)
    (vrNum : Int) :
    ∃ versionType : ResourceType,
      (versionType = .version ∨ versionType = .collectionVersion) ∧
        sabridgeMkNewVersion tables r vrNum =
          ((dbmsInsertResource tables versionType).1,
            { resourceId := tables.nextId
              number := vrNum
              vcrId := r.serialno
              vhrId := r.vhrId }) := by
  cases resourcetype
  case versioned =>
    refine ⟨.version, Or.inl rfl, ?_⟩
    simp only [sabridgeMkNewVersion, typed, dbmsInsertResource]
  case versionedCollection =>
    refine ⟨.collectionVersion, Or.inr rfl, ?_⟩
    simp only [sabridgeMkNewVersion, typed, dbmsInsertResource]
  all_goals cases versioned

theorem isVersioned_of_isVersion
    {versionType : ResourceType}
    (isVersion : versionType = .version ∨ versionType = .collectionVersion) :
    isVersioned versionType = false := by
  rcases isVersion with rfl | rfl
  · rfl
  · rfl

/-- No version has the id that the sequence gives next. -/
theorem Consistent.nextId_not_version
    (consistent : Consistent tables awaiting) :
    tables.nextId ∉ tables.versions.map Version.resourceId := by
  intro member
  rcases List.mem_map.mp member with ⟨version, listed, versionId⟩
  rcases consistent.versionResource version listed with ⟨row, rowListed, rowId, _⟩
  apply consistent.nextId_fresh
  exact List.mem_map.mpr ⟨row, rowListed, rowId.trans versionId⟩

/-- The version with the number after the last is the one just inserted. -/
theorem Consistent.dbmsGetVersionId_new
    (consistent : Consistent tables awaiting)
    (member : vcr ∈ tables.vcrs)
    {numbered : VersionTables}
    {new : Version}
    (rows : numbered.versions = tables.versions ++ [new])
    {r : DavReposResource}
    (own : vcr.resourceId = r.serialno)
    {id : Id}
    (found : dbmsGetVersionId numbered r
      ((versionsOf tables vcr.vhrId).length + 1) = .ok id) :
    id = new.resourceId := by
  unfold dbmsGetVersionId at found
  rw [rows] at found
  match equation : (tables.versions ++ [new]).find? fun row =>
      row.number == ((versionsOf tables vcr.vhrId).length + 1 : Int) &&
        row.vcrId == r.serialno with
  | none =>
      rw [equation] at found
      cases found
  | some version =>
      rw [equation] at found
      cases found
      have meets := List.find?_some equation
      rw [Bool.and_eq_true, beq_iff_eq, beq_iff_eq] at meets
      rcases List.mem_append.mp (List.mem_of_find?_eq_some equation)
        with old | last
      · rcases consistent.versionVcr version old with
          ⟨other, otherMember, otherId, otherVhr⟩
        have equal : other = vcr := by
          apply consistent.vcr_unique otherMember member
          rw [otherId, meets.2, own]
        have belongs : version ∈ versionsOf tables vcr.vhrId := by
          rw [mem_versionsOf, ← equal]
          exact ⟨old, otherVhr.symm⟩
        have bounds := (consistent.numbered vcr member).bounds belongs
        have above := meets.1
        omega
      · rw [List.mem_singleton.mp last]

theorem Consistent.davReposCheckin
    (consistent : Consistent tables awaiting)
    {resource : DavResource}
    (agrees : Agrees tables resource)
    {result : VersionTables × DavResource}
    (succeeds : davReposCheckin tables resource = .ok result) :
    Called tables (awaiting.filter fun id => id != resource.dbR.serialno)
      resource.dbR.serialno result := by
  rcases ite_error_eq_ok.mp succeeds with ⟨_, checked⟩
  rcases ite_error_eq_ok.mp checked with ⟨checkedOut, statements⟩
  rcases bind_eq_ok.mp statements with ⟨numbered, inserted, rest⟩
  rcases bind_eq_ok.mp rest with ⟨last, stored, returned⟩
  cases returned
  have versioned : resource.dbR.checkedState ≠ .notVersioned := by
    rw [not_not.mp checkedOut]
    intro same
    cases same
  rcases agrees.exists_vcr versioned with ⟨vcr, member, own⟩
  rcases agrees.record vcr member own with ⟨_, vhr, number⟩
  rcases agrees.row with
    ⟨resourcetype, listed, typed, present, isControlled, isRegular⟩
  have controlled : isVersioned resourcetype = true := by
    rcases consistent.vcrResource vcr member with ⟨row, rowListed, rowId, rest⟩
    have equal : row = (resource.dbR.serialno, resourcetype) :=
      consistent.resource_unique rowListed listed (rowId.trans own)
    rw [equal] at rest
    exact rest
  rcases sabridgeMkNewVersion_eq typed controlled (resource.dbR.vrNum + 1)
    with ⟨versionType, isVersion, created⟩
  have grown := consistent.dbmsInsertResource
    (isVersioned_of_isVersion isVersion)
  have grows := grows_dbmsInsertResource tables versionType
  have count : versionsOf (DbmsDeltav.dbmsInsertResource tables versionType).1
      vcr.vhrId = versionsOf tables vcr.vhrId := grows.versionsOf _
  -- The tables with the new version, before the row of the resource.
  rw [created] at inserted
  unfold dbmsInsertVersion at inserted
  rcases ite_error_eq_ok.mp inserted with ⟨_, inserted⟩
  have rows : numbered.versions = tables.versions ++
      [{ resourceId := tables.nextId
         number := resource.dbR.vrNum + 1
         vcrId := resource.dbR.serialno
         vhrId := resource.dbR.vhrId }] := by
    cases inserted
    by_cases first : resource.dbR.vrNum = 0
    · simp [first, dbmsUpdateVhr, DbmsDeltav.dbmsInsertResource]
    · simp [first, DbmsDeltav.dbmsInsertResource]
  have different : ¬(resource.dbR.vrNum = resource.dbR.vrNum + 1 ∧
      resource.dbR.checkedId ≠ 0) := by
    rintro ⟨same, _⟩
    omega
  unfold dbmsSetCheckinOut at stored
  rw [if_neg different] at stored
  rcases bind_eq_ok.mp stored with ⟨checkedId, looked, returned⟩
  cases returned
  rw [number] at looked
  have newest : checkedId = tables.nextId :=
    consistent.dbmsGetVersionId_new member rows own looked
  have final : DbmsDeltav.updateVcr numbered resource.dbR.serialno .checkedIn
      checkedId = checkedInTables
        (DbmsDeltav.dbmsInsertResource tables versionType).1 vcr
        tables.nextId := by
    cases inserted
    rw [newest, number, vhr, ← own]
    unfold checkedInTables
    rw [count]
    by_cases first : (versionsOf tables vcr.vhrId).length = 0
    · simp [first, DbmsDeltav.updateVcr, dbmsUpdateVhr,
        DbmsDeltav.dbmsInsertResource]
    · simp [first, DbmsDeltav.updateVcr, DbmsDeltav.dbmsInsertResource]
  have settled := grown.checkedIn member
    (mem_dbmsInsertResource tables versionType) isVersion
    consistent.nextId_not_version
  have keeps : KeepsOthers vcr.resourceId tables (checkedInTables
      (DbmsDeltav.dbmsInsertResource tables versionType).1 vcr
      tables.nextId) :=
    (grows.keepsOthers vcr.resourceId).trans
      (grown.keepsOthers_checkedInTables member)
  rw [own] at settled keeps
  constructor
  case consistent =>
    show Consistent (DbmsDeltav.updateVcr numbered _ _ _) _
    rw [final]
    exact settled
  case keeps =>
    show KeepsOthers _ _ (DbmsDeltav.updateVcr numbered _ _ _)
    rw [final]
    exact keeps
  case same => rfl
  case agrees =>
    show Agrees (DbmsDeltav.updateVcr numbered _ _ _) _
    rw [final]
    constructor
    case row =>
      refine ⟨resourcetype, grows.resources _ listed, typed, present,
        isControlled, ?_⟩
      intro _
      simp [DbmsDeltav.isRegular, controlled]
    case record =>
      intro row rowListed rowOwn
      rcases mem_updateVcr.mp rowListed with ⟨_, other⟩ | ⟨old, same, self, rfl⟩
      · exact absurd (rowOwn.trans own.symm) other
      · have equal : old = vcr := consistent.vcr_unique same member self
        rw [equal]
        refine ⟨newest, vhr, ?_⟩
        show resource.dbR.vrNum + 1 = _
        rw [versionsOf_checkedInTables_self, count, number]
        simp
    case uncontrolled =>
      intro noRow
      have memberGrown :
          vcr ∈ (DbmsDeltav.dbmsInsertResource tables versionType).1.vcrs :=
        member
      rcases exists_updateVcr memberGrown with ⟨row, rowListed, rowId, _⟩
      exact absurd (rowId.trans own) (noRow row rowListed)

/-! ## Version control -/

/-- No history has the id that the sequence gives next. -/
theorem Consistent.nextId_not_vhr
    (consistent : Consistent tables awaiting) :
    tables.nextId ∉ tables.vhrs.map Vhr.resourceId := by
  intro member
  rcases List.mem_map.mp member with ⟨vhr, listed, vhrId⟩
  rcases consistent.vhrResource vhr listed with ⟨row, rowListed, rowId⟩
  apply consistent.nextId_fresh
  exact List.mem_map.mpr ⟨row, rowListed, rowId.trans vhrId⟩

/-- A new resource for a history. -/
theorem Consistent.sabridgeMkVhr
    (consistent : Consistent tables awaiting)
    (missing : Nat) :
    Consistent (sabridgeMkVhr tables missing).1 awaiting ∧
      Grows tables (sabridgeMkVhr tables missing).1 ∧
      (sabridgeMkVhr tables missing).2 ∈
        (sabridgeMkVhr tables missing).1.resources.map Prod.fst ∧
      (sabridgeMkVhr tables missing).2 ∉
        (sabridgeMkVhr tables missing).1.vhrs.map Vhr.resourceId := by
  have uncontrolled : isVersioned .versionHistory = false := rfl
  have created := consistent.dbmsInsertResource uncontrolled
  have later := created.sabridgeMkcolWParents missing
  have grows := (grows_dbmsInsertResource tables _).trans later.2
  refine ⟨later.1, grows, ?_, ?_⟩
  · exact List.mem_map_of_mem (later.2.resources _
      (mem_dbmsInsertResource tables .versionHistory))
  · show tables.nextId ∉ _
    rw [show (DbmsDeltav.sabridgeMkVhr tables missing).1.vhrs = tables.vhrs
      from grows.vhrs]
    exact consistent.nextId_not_vhr

theorem sabridgeMkVhr_updateType
    {serialno : Id}
    (old : serialno < tables.nextId)
    (newType : ResourceType)
    (missing : Nat) :
    sabridgeMkVhr (updateType tables serialno newType) missing =
      (updateType (sabridgeMkVhr tables missing).1 serialno newType,
        (sabridgeMkVhr tables missing).2) := by
  have next : serialno < (dbmsInsertResource tables .versionHistory).1.nextId :=
    Int.lt_trans old (Int.lt_succ _)
  have inserted := dbmsInsertResource_updateType old newType .versionHistory
  have collections := sabridgeMkcolWParents_updateType next newType missing
  show (sabridgeMkcolWParents (dbmsInsertResource
    (updateType tables serialno newType) .versionHistory).1 missing,
      tables.nextId) = _
  rw [inserted, collections]
  rfl

/-- The type a controllable resource changes to. -/
theorem versionControlled_controllable
    (controllable : resourcetype = .resource ∨ resourcetype = .collection) :
    isVersioned resourcetype = false ∧
      ∃ newType, versionControlled (some resourcetype) = some newType ∧
        isVersioned newType = true := by
  rcases controllable with rfl | rfl
  · exact ⟨rfl, .versioned, rfl, rfl⟩
  · exact ⟨rfl, .versionedCollection, rfl, rfl⟩

/-- A resource that is not under version control has no row to collide with. -/
theorem Consistent.serialno_not_mem
    (consistent : Consistent tables awaiting)
    {serialno : Id}
    (listed : (serialno, resourcetype) ∈ tables.resources)
    (uncontrolled : isVersioned resourcetype = false) :
    serialno ∉ tables.vcrs.map Vcr.resourceId := by
  intro member
  rcases List.mem_map.mp member with ⟨row, rowListed, rowId⟩
  exact consistent.ne_of_uncontrolled listed uncontrolled rowListed rowId

/-- The row that `sabridge_vsn_control` inserts for a resource. -/
def controlledVcr (r : DavReposResource) (vhrId checkedId : Id)
    (avNewChildren : Option AutoversionType) : Vcr where
  resourceId := r.serialno
  checkedId := checkedId
  vhrId := vhrId
  checkedState := .checkedIn
  versionType := childAutoversionType r.autoversionType avNewChildren
  checkinOnUnlock := false

/-- Memory after `sabridge_vsn_control`. -/
def controlledDbR (r : DavReposResource) (newType : ResourceType)
    (vhrId checkedId : Id) (number : Int)
    (avNewChildren : Option AutoversionType) : DavReposResource where
  serialno := r.serialno
  resourcetype := some newType
  checkedState := .checkedIn
  checkedId := checkedId
  vhrId := vhrId
  vrNum := number
  autoversionType := childAutoversionType r.autoversionType avNewChildren
  checkinOnUnlock := true

/-- A resource that was created just now comes under version control. -/
theorem Consistent.sabridgeVsnControl_auto
    (consistent : Consistent tables awaiting)
    {r : DavReposResource}
    (listed : (r.serialno, resourcetype) ∈ tables.resources)
    (typed : r.resourcetype = some resourcetype)
    (controllable : resourcetype = .resource ∨ resourcetype = .collection)
    (avNewChildren : Option AutoversionType)
    (missing : Nat) :
    ∃ newType vhrId grown, isVersioned newType = true ∧
      Grows tables grown ∧ Consistent grown awaiting ∧
      NewHistory grown resourcetype []
        (controlledVcr r vhrId r.serialno avNewChildren) ∧
      sabridgeVsnControl tables r true avNewChildren missing = .ok
        (controlledTables grown newType []
          (controlledVcr r vhrId r.serialno avNewChildren) r.serialno,
        controlledDbR r newType vhrId r.serialno 0 avNewChildren) := by
  have old : r.serialno < tables.nextId := (consistent.sequence _ listed).2
  rcases versionControlled_controllable controllable with
    ⟨uncontrolled, newType, changed, versioned⟩
  rcases consistent.sabridgeMkVhr missing with ⟨made, grows, vhr, fresh⟩
  have madeListed := grows.resources _ listed
  have noRow := made.serialno_not_mem madeListed uncontrolled
  refine ⟨newType, (DbmsDeltav.sabridgeMkVhr tables missing).2, _, versioned,
    grows, made, ?_, ?_⟩
  · constructor
    case resource => exact madeListed
    case controllable => exact controllable
    case vhr => exact vhr
    case vhrFresh => exact fresh
    case single => exact Nat.zero_le 1
    case version =>
      intro version member
      cases member
  · unfold sabridgeVsnControl
    rw [typed, changed]
    simp only [dbmsUpdateResourceType, sabridgeMkVhr_updateType old,
      firstVersion, if_true]
    rw [dbmsInsertVhr_fresh fresh]
    simp only [bind, Except.bind]
    rw [dbmsInsertVcr_fresh]
    · simp only [controlledTables, List.append_nil]
      rfl
    · exact noRow

/-- A resource that was there comes under version control. -/
theorem Consistent.sabridgeVsnControl_existing
    (consistent : Consistent tables awaiting)
    {r : DavReposResource}
    (listed : (r.serialno, resourcetype) ∈ tables.resources)
    (typed : r.resourcetype = some resourcetype)
    (controllable : resourcetype = .resource ∨ resourcetype = .collection)
    (avNewChildren : Option AutoversionType)
    (missing : Nat) :
    ∃ newType vhrId versionId grown, isVersioned newType = true ∧
      Grows tables grown ∧ Consistent grown awaiting ∧
      NewHistory grown resourcetype
        [(⟨versionId, 1, r.serialno, vhrId⟩ : Version)]
        (controlledVcr r vhrId versionId avNewChildren) ∧
      sabridgeVsnControl tables r false avNewChildren missing = .ok
        (controlledTables grown newType
          [(⟨versionId, 1, r.serialno, vhrId⟩ : Version)]
          (controlledVcr r vhrId versionId avNewChildren) versionId,
        controlledDbR r newType vhrId versionId 1 avNewChildren) := by
  have old : r.serialno < tables.nextId := (consistent.sequence _ listed).2
  rcases versionControlled_controllable controllable with
    ⟨uncontrolled, newType, changed, versioned⟩
  rcases consistent.sabridgeMkVhr missing with ⟨made, grows, vhr, fresh⟩
  have oldMade : r.serialno <
      (DbmsDeltav.sabridgeMkVhr tables missing).1.nextId :=
    Int.lt_of_lt_of_le old grows.nextId
  have noRow := made.serialno_not_mem (grows.resources _ listed) uncontrolled
  have freshVersion := made.nextId_not_version
  have typedType : ({ r with resourcetype := some newType } :
      DavReposResource).resourcetype = some newType := rfl
  rcases sabridgeMkNewVersion_eq typedType versioned 1 with
    ⟨versionType, isVersion, created⟩
  have grown := made.dbmsInsertResource (isVersioned_of_isVersion isVersion)
  have growsNext := grows.trans (grows_dbmsInsertResource _ versionType)
  have inserted := dbmsInsertResource_updateType oldMade newType versionType
  refine ⟨newType, (DbmsDeltav.sabridgeMkVhr tables missing).2,
    (DbmsDeltav.sabridgeMkVhr tables missing).1.nextId, _, versioned,
    growsNext, grown, ?_, ?_⟩
  · constructor
    case resource => exact growsNext.resources _ listed
    case controllable => exact controllable
    case vhr =>
      rcases List.mem_map.mp vhr with ⟨row, rowListed, rowId⟩
      exact List.mem_map.mpr ⟨row, List.mem_append_left _ rowListed, rowId⟩
    case vhrFresh => exact fresh
    case single => exact Nat.le_refl 1
    case version =>
      intro version member
      rw [List.mem_singleton.mp member]
      refine ⟨rfl, rfl, rfl, freshVersion, ?_⟩
      rcases isVersion with rfl | rfl
      · exact Or.inl (mem_dbmsInsertResource _ _)
      · exact Or.inr (mem_dbmsInsertResource _ _)
  · unfold sabridgeVsnControl
    rw [typed, changed]
    simp only [dbmsUpdateResourceType, sabridgeMkVhr_updateType old,
      firstVersion, Bool.false_eq_true, if_false]
    rw [created, inserted, dbmsInsertVhr_fresh fresh]
    simp only [bind, Except.bind]
    rw [dbmsInsertVersion_fresh freshVersion]
    simp only
    rw [dbmsInsertVcr_fresh]
    · rfl
    · exact noRow

/-- Memory after a resource came under version control. -/
theorem NewHistory.agrees
    (consistent : Consistent tables awaiting)
    {r : DavReposResource}
    {vhrId checkedId : Id}
    {avNewChildren : Option AutoversionType}
    (new : NewHistory tables resourcetype versions
      (controlledVcr r vhrId checkedId avNewChildren))
    (versioned : isVersioned newType = true)
    (resource : DavResource)
    (present : resource.present = true) :
    Agrees
      (controlledTables tables newType versions
        (controlledVcr r vhrId checkedId avNewChildren) rootVersionId)
      { resource with
        dbR := controlledDbR r newType vhrId checkedId versions.length
          avNewChildren
        versioned := true
        working := false } where
  row := by
    refine ⟨newType, mem_updateType_self new.resource, rfl, ?_,
      versioned.symm, ?_⟩
    · show resource.present = _
      rw [present]
      cases newType
      case lockNull => cases versioned
      all_goals rfl
    · intro _
      simp [isRegular, versioned]
  record := by
    intro row listed own
    rcases List.mem_append.mp listed with old | last
    · exact absurd own
        (consistent.ne_of_uncontrolled new.resource new.uncontrolled old)
    · rw [List.mem_singleton.mp last, new.versionsOf_self consistent]
      exact ⟨rfl, rfl, rfl⟩
  uncontrolled := by
    intro noRow
    exact absurd rfl
      (noRow _ (List.mem_append_right _ (List.mem_singleton.mpr rfl)))

/-- `dav_repos_vsn_control` of a resource that the request has loaded. -/
theorem Consistent.davReposVsnControl
    (consistent : Consistent tables awaiting)
    {resource : DavResource}
    (agrees : Agrees tables resource)
    {committed : VersionTables}
    {avNewChildren : Option AutoversionType}
    {missing : Nat}
    {result : VersionTables × DavResource}
    (succeeds : davReposVsnControl committed tables resource avNewChildren
      missing = .ok result) :
    Called tables awaiting resource.dbR.serialno result := by
  rcases agrees.row with
    ⟨resourcetype, listed, typed, present, isControlled, isRegular⟩
  rcases bind_eq_ok.mp succeeds with ⟨found, created, rest⟩
  by_cases exists_ : resource.present = true
  · simp only [exists_, Bool.not_true, Bool.false_eq_true, if_false]
      at created rest
    cases created
    rcases ite_error_eq_ok.mp rest with ⟨regular, rest⟩
    by_cases controlled : resource.versioned = true
    · simp only [controlled, if_true] at rest
      cases rest
      exact ⟨consistent, agrees,
        (Grows.refl tables).keepsOthers _, rfl⟩
    · have controllable :
          resourcetype = .resource ∨ resourcetype = .collection := by
        have regularType := isRegular (by simpa using regular)
        rw [isControlled] at controlled
        rw [exists_] at present
        cases resourcetype
        case resource => exact Or.inl rfl
        case collection => exact Or.inr rfl
        case lockNull => cases present
        case versioned => exact absurd rfl controlled
        case versionedCollection => exact absurd rfl controlled
        all_goals cases regularType
      rcases consistent.sabridgeVsnControl_existing listed typed controllable
          avNewChildren missing with
        ⟨newType, vhrId, versionId, grown, versioned, grows, kept, new,
          stored⟩
      simp only [controlled, Bool.false_eq_true, if_false, stored] at rest
      cases rest
      have different : resource.dbR.serialno ∉ awaiting := by
        intro awaited
        rcases consistent.awaitingVcr _ awaited with ⟨vcr, member, own⟩
        rcases versionControlled_controllable controllable with
          ⟨uncontrolled, _⟩
        exact consistent.ne_of_uncontrolled listed uncontrolled member own
      constructor
      case consistent =>
        apply kept.newHistory new versioned (fun _ _ => Iff.rfl)
        · exact fun awaited => absurd awaited different
        · intro _
          have versions : versionsOf (controlledTables grown newType _
              (controlledVcr resource.dbR vhrId versionId avNewChildren)
              versionId) vhrId = _ := new.versionsOf_self kept
          constructor
          case root =>
            show ∃ version ∈ versionsOf _ vhrId, _
            rw [versions]
            exact ⟨_, List.mem_singleton.mpr rfl, rfl,
              List.mem_append_right _ (List.mem_singleton.mpr rfl)⟩
          case latest =>
            show ∃ version ∈ versionsOf _ vhrId,
              version.number = ((versionsOf _ vhrId).length : Int) ∧ _
            rw [versions]
            exact ⟨_, List.mem_singleton.mpr rfl, rfl, rfl⟩
      case agrees => exact new.agrees kept versioned resource exists_
      case keeps =>
        exact (grows.keepsOthers _).trans (new.keepsOthers kept)
      case same => rfl
  · -- A lock-null resource: the bind of its URI is there already.
    have absent : resource.present = false := by simpa using exists_
    have nonzero : resource.dbR.serialno ≠ 0 :=
      consistent.ne_zero (List.mem_map_of_mem listed)
    simp only [absent, Bool.not_false, if_true] at created
    unfold davReposCreateResource at created
    rcases ite_error_eq_ok.mp created with ⟨zero, _⟩
    exact absurd nonzero zero

/-- `dav_repos_vsn_control` of a URI without a resource. -/
theorem Consistent.davReposVsnControl_absent
    (consistent : Consistent tables awaiting)
    {committed : VersionTables}
    {collection : Bool}
    {avNewChildren : Option AutoversionType}
    {missing : Nat}
    {result : VersionTables × DavResource}
    (succeeds : DbmsDeltav.davReposVsnControl committed tables
      { davReposNewResource with collection := collection } avNewChildren
      missing = .ok result) :
    Called tables (tables.nextId :: awaiting) tables.nextId result := by
  rcases bind_eq_ok.mp succeeds with ⟨found, created, rest⟩
  let resourcetype : ResourceType :=
    if collection then .collection else .resource
  have controllable :
      resourcetype = .resource ∨ resourcetype = .collection := by
    cases collection
    · exact Or.inl rfl
    · exact Or.inr rfl
  rcases versionControlled_controllable controllable with ⟨uncontrolled, _⟩
  have inserted := consistent.dbmsInsertResource uncontrolled
  have grownFirst := grows_dbmsInsertResource tables resourcetype
  have listed := mem_dbmsInsertResource tables resourcetype
  have foundEq : found =
      ((DbmsDeltav.dbmsInsertResource tables resourcetype).1,
        davReposUpdateDbrResource
          { davReposNewResource with
            collection := collection
            dbR := { davReposNewResource.dbR with
              serialno := tables.nextId
              resourcetype := some resourcetype } } resourcetype) := by
    cases collection
    · cases created
      rfl
    · cases created
      rfl
  have regular : found.2.regular = true ∧ found.2.versioned = false ∧
      found.2.present = true := by
    rw [foundEq]
    cases collection
    · exact ⟨rfl, rfl, rfl⟩
    · exact ⟨rfl, rfl, rfl⟩
  simp only [regular.1, regular.2.1, Bool.not_true, Bool.false_eq_true,
    if_false] at rest
  have dbR : found.2.dbR = { davReposNewResource.dbR with
      serialno := tables.nextId, resourcetype := some resourcetype } := by
    rw [foundEq]
    rfl
  have tablesEq : found.1 =
      (DbmsDeltav.dbmsInsertResource tables resourcetype).1 := by
    rw [foundEq]
  have listedFound : (found.2.dbR.serialno, resourcetype) ∈
      (DbmsDeltav.dbmsInsertResource tables resourcetype).1.resources := by
    rw [dbR]
    exact listed
  have typed : found.2.dbR.resourcetype = some resourcetype := by
    rw [dbR]
  rcases inserted.sabridgeVsnControl_auto listedFound typed controllable
      avNewChildren missing with
    ⟨newType, vhrId, grown, versioned, grows, kept, new, stored⟩
  have auto : (!({ davReposNewResource with
      collection := collection } : DavResource).present) = true := rfl
  rw [auto, tablesEq, stored] at rest
  cases rest
  have serialno : found.2.dbR.serialno = tables.nextId := by rw [dbR]
  constructor
  case consistent =>
    apply kept.newHistory new versioned
    · intro id other
      rw [List.mem_cons]
      have notNext : id ≠ tables.nextId := fun same =>
        other (same.trans serialno.symm)
      exact ⟨fun member => member.resolve_left notNext, Or.inr⟩
    · intro _
      exact
        { noVersion := new.versionsOf_self kept
          root := List.mem_append_right _ (List.mem_singleton.mpr rfl)
          checked := rfl }
    · intro settled
      exact absurd (List.mem_cons.mpr (Or.inl serialno)) settled
  case agrees =>
    have agrees : Agrees (controlledTables grown newType []
        (controlledVcr found.2.dbR vhrId found.2.dbR.serialno avNewChildren)
        found.2.dbR.serialno) _ :=
      new.agrees kept versioned found.2 regular.2.2
    rw [regular.1] at agrees
    exact agrees
  case keeps =>
    exact (grownFirst.keepsOthers _).trans
      ((grows.keepsOthers _).trans (new.keepsOthers kept))
  case same => exact serialno

/-! ## Loading a resource -/

theorem Consistent.davReposGetResource
    (consistent : Consistent tables awaiting)
    {serialno : Id}
    (listed : serialno ∈ tables.resources.map Prod.fst)
    {resource : DavResource}
    (succeeds : davReposGetResource tables serialno = .ok resource) :
    Agrees tables resource ∧ resource.dbR.serialno = serialno := by
  rcases List.mem_map.mp listed with ⟨row, rowListed, rfl⟩
  unfold DbmsDeltav.davReposGetResource at succeeds
  rw [Sql.find_key consistent.resourcesPkey rowListed] at succeeds
  rcases bind_eq_ok.mp succeeds with ⟨dbR, loaded, returned⟩
  cases returned
  by_cases versioned : isVersioned row.2 = true
  · rcases consistent.controlled row rowListed versioned with
      ⟨vcr, member, own⟩
    rw [if_pos versioned] at loaded
    by_cases awaited : vcr.resourceId ∈ awaiting
    · rw [consistent.dbmsGetVcrProps_awaits member awaited own.symm] at loaded
      cases loaded
    · rw [consistent.dbmsGetVcrProps_inStep member awaited own.symm] at loaded
      cases loaded
      refine ⟨?_, rfl⟩
      constructor
      case row =>
        exact ⟨row.2, rowListed, rfl, rfl, rfl, fun regular => regular⟩
      case record =>
        intro other otherMember otherOwn
        have equal : other = vcr :=
          consistent.vcr_unique otherMember member (otherOwn.trans own.symm)
        rw [equal]
        exact ⟨rfl, rfl, rfl⟩
      case uncontrolled =>
        intro noRow
        exact absurd own (noRow vcr member)
  · have uncontrolled : isVersioned row.2 = false := by simpa using versioned
    rw [if_neg versioned] at loaded
    cases loaded
    refine ⟨?_, rfl⟩
    constructor
    case row =>
      exact ⟨row.2, rowListed, rfl, rfl, rfl, fun regular => regular⟩
    case record =>
      intro other otherMember otherOwn
      exact absurd otherOwn
        (consistent.ne_of_uncontrolled rowListed uncontrolled otherMember)
    case uncontrolled =>
      intro _
      rfl

/-! ## Runs -/

/-- What every step keeps of a session. -/
structure Invariant (traced : Traced) : Prop where
  committed : Consistent traced.session.committed []
  current : Consistent traced.session.current traced.awaiting
  held : ∀ id resource, traced.session.held id = some resource →
    resource.dbR.serialno = id ∧ Agrees traced.session.current resource

theorem invariant_start
    (consistent : Consistent tables []) :
    Invariant ⟨Session.start tables, []⟩ where
  committed := consistent
  current := consistent
  held := by
    intro id resource held
    cases held

/-- A call on one resource keeps what memory says of the others. -/
theorem Invariant.called
    {traced : Traced}
    (invariant : Invariant traced)
    {serialno : Id}
    {awaitingNext : List Id}
    {result : VersionTables × DavResource}
    (called : Called traced.session.current awaitingNext serialno result) :
    Invariant
      ⟨{ traced.session with
          current := result.1
          held := hold traced.session.held result.2 }, awaitingNext⟩ where
  committed := invariant.committed
  current := called.consistent
  held := by
    intro id resource held
    change (if id = result.2.dbR.serialno then some result.2
      else traced.session.held id) = some resource at held
    by_cases own : id = result.2.dbR.serialno
    · rw [if_pos own] at held
      cases held
      exact ⟨own.symm, called.agrees⟩
    · rw [if_neg own] at held
      rcases invariant.held id resource held with ⟨serial, agrees⟩
      refine ⟨serial, agrees.frame called.keeps ?_⟩
      rw [serial]
      exact own

/-- The deferred foreign keys let no resource through that has no version. -/
theorem Consistent.of_foreignKeys
    (consistent : Consistent tables awaiting)
    (keys : foreignKeys tables = true) :
    Consistent tables [] := by
  have settled : ∀ vcr ∈ tables.vcrs, vcr.resourceId ∉ awaiting := by
    intro vcr member awaited
    have checked := (consistent.awaits vcr member awaited).checked
    simp only [foreignKeys, Bool.and_eq_true, List.all_eq_true,
      decide_eq_true_eq] at keys
    have version := (keys.2 vcr member).1.2
    rw [checked] at version
    rcases List.mem_map.mp version with ⟨row, listed, rowId⟩
    exact consistent.version_ne_vcr listed member rowId
  exact
    { consistent with
      awaitingVcr := by
        intro id member
        cases member
      awaits := by
        intro vcr _ member
        cases member
      inStep := fun vcr member _ =>
        consistent.inStep vcr member (settled vcr member) }

/-- A call that succeeds, if it is one of the steps that keep `awaiting`. -/
theorem Invariant.heldCall
    {traced : Traced}
    (invariant : Invariant traced)
    {serialno : Id}
    {awaitingNext : List Id}
    {call : DavResource → Except DavError (VersionTables × DavResource)}
    (keeps : ∀ resource result, resource.dbR.serialno = serialno →
      Agrees traced.session.current resource →
      call resource = .ok result →
        Called traced.session.current awaitingNext serialno result)
    {next : Session}
    (taken : ((traced.session.held serialno).bind fun resource =>
      VersionHistories.called traced.session (call resource)) = some next) :
    Invariant ⟨next, awaitingNext⟩ := by
  rcases Option.bind_eq_some_iff.mp taken with ⟨resource, held, stored⟩
  rcases invariant.held serialno resource held with ⟨serial, agrees⟩
  match outcome : call resource with
  | .error failure =>
      rw [outcome] at stored
      cases stored
  | .ok result =>
      rw [outcome] at stored
      cases stored
      exact invariant.called (keeps resource result serial agrees outcome)

theorem Invariant.after
    {traced : Traced}
    (invariant : Invariant traced)
    (taken : Step) :
    Invariant (after traced taken) := by
  have failed : ∀ same : Step, step traced.session same = none →
      awaitingAfter traced.session traced.awaiting same = traced.awaiting →
      Invariant (VersionHistories.after traced same) := by
    intro same fails kept
    unfold VersionHistories.after
    rw [fails, kept]
    exact invariant
  match outcome : step traced.session taken with
  | none =>
      cases taken
      case commit => cases outcome
      case rollback => cases outcome
      all_goals
        apply failed _ outcome
        simp [awaitingAfter, outcome]
  | some next =>
      unfold VersionHistories.after
      rw [outcome]
      cases taken
      case get serialno =>
        show Invariant ⟨next, traced.awaiting⟩
        simp only [step] at outcome
        by_cases listed :
            serialno ∈ traced.session.current.resources.map Prod.fst
        · rw [if_pos listed] at outcome
          match loaded : davReposGetResource traced.session.current
              serialno with
          | .error failure =>
              rw [loaded] at outcome
              cases outcome
          | .ok resource =>
              rw [loaded] at outcome
              cases outcome
              have agrees :=
                invariant.current.davReposGetResource listed loaded
              have same : Called traced.session.current traced.awaiting
                  serialno (traced.session.current, resource) :=
                ⟨invariant.current, agrees.1,
                  (Grows.refl _).keepsOthers _, agrees.2⟩
              exact invariant.called same
        · rw [if_neg listed] at outcome
          cases outcome
      case autoCreate collection avNewChildren missing =>
        have kept : awaitingAfter traced.session traced.awaiting
            (.autoCreate collection avNewChildren missing) =
              traced.session.current.nextId :: traced.awaiting := by
          simp [awaitingAfter, outcome]
        rw [kept]
        simp only [step] at outcome
        match created : davReposVsnControl traced.session.committed
            traced.session.current
            { davReposNewResource with collection := collection }
            avNewChildren missing with
        | .error failure =>
            rw [created] at outcome
            cases outcome
        | .ok result =>
            rw [created] at outcome
            cases outcome
            exact invariant.called
              (invariant.current.davReposVsnControl_absent created)
      case vsnControl serialno avNewChildren missing =>
        apply invariant.heldCall _ outcome
        intro resource result serial agrees succeeds
        rw [← serial]
        exact invariant.current.davReposVsnControl agrees succeeds
      case checkout serialno =>
        apply invariant.heldCall _ outcome
        intro resource result serial agrees succeeds
        rw [← serial]
        exact invariant.current.davReposCheckout agrees succeeds
      case uncheckout serialno =>
        apply invariant.heldCall _ outcome
        intro resource result serial agrees succeeds
        rw [← serial]
        exact invariant.current.davReposUncheckout agrees succeeds
      case checkin serialno =>
        have kept : awaitingAfter traced.session traced.awaiting
            (.checkin serialno) =
              traced.awaiting.filter fun id => id != serialno := by
          simp [awaitingAfter, outcome]
        rw [kept]
        apply invariant.heldCall _ outcome
        intro resource result serial agrees succeeds
        rw [← serial]
        exact invariant.current.davReposCheckin agrees succeeds
      case commit =>
        cases outcome
        show Invariant ⟨Session.start _, []⟩
        apply invariant_start
        by_cases keys : foreignKeys traced.session.current = true
        · rw [if_pos keys]
          exact invariant.current.of_foreignKeys keys
        · rw [if_neg keys]
          exact invariant.committed
      case rollback =>
        cases outcome
        exact invariant_start invariant.committed

/-! ## The tables at the start -/

/-- Any resources, none of them under version control. -/
structure FreshTables where
  resources : List (Id × ResourceType)
  nextId : Id
  resourcesPkey : (resources.map Prod.fst).Nodup
  sequence : ∀ row ∈ resources, 0 < row.1 ∧ row.1 < nextId
  nextPositive : 0 < nextId
  uncontrolled : ∀ row ∈ resources, isVersioned row.2 = false

def FreshTables.toTables (fresh : FreshTables) : VersionTables where
  resources := fresh.resources
  nextId := fresh.nextId
  versions := []
  vhrs := []
  vcrs := []

theorem FreshTables.consistent (fresh : FreshTables) :
    Consistent fresh.toTables [] where
  resourcesPkey := fresh.resourcesPkey
  sequence := fresh.sequence
  nextPositive := fresh.nextPositive
  versionsKey := List.nodup_nil
  vhrsKey := List.nodup_nil
  vcrsKey := List.nodup_nil
  vcrsVhr := List.nodup_nil
  versionResource := by
    intro _ member
    cases member
  vhrResource := by
    intro _ member
    cases member
  vcrResource := by
    intro _ member
    cases member
  controlled := by
    intro row listed versioned
    rw [fresh.uncontrolled row listed] at versioned
    cases versioned
  vhrVcr := by
    intro _ member
    cases member
  versionVcr := by
    intro _ member
    cases member
  awaitingVcr := by
    intro _ member
    cases member
  numbered := by
    intro _ member
    cases member
  awaits := by
    intro _ member
    cases member
  inStep := by
    intro _ member
    cases member

def FreshTables.start (fresh : FreshTables) : Traced :=
  ⟨Session.start fresh.toTables, []⟩

/-! ## Numbers in step throughout a run -/

/-- The row of a resource is loaded with the number of its last version. -/
def Loads (tables : VersionTables) (vcr : Vcr) : Prop :=
  ∀ r : DavReposResource, r.serialno = vcr.resourceId →
    ∃ loaded, dbmsGetVcrProps tables r = .ok loaded ∧
      loaded.checkedId = vcr.checkedId ∧
      loaded.vrNum = (versionsOf tables vcr.vhrId).length

/-- All histories, root versions and checked versions are in step. -/
def AllInStep (tables : VersionTables) : Prop :=
  (∀ vhr ∈ tables.vhrs, Numbered tables vhr.resourceId) ∧
    ∀ vcr ∈ tables.vcrs, InStep tables vcr ∧ Loads tables vcr

/--
The same, except for the resources that await their first check-in; and
memory has the numbers of the tables.
-/
structure InStepButAwaiting (traced : Traced) : Prop where
  numbered : ∀ vhr ∈ traced.session.current.vhrs,
    Numbered traced.session.current vhr.resourceId
  controlled : ∀ row ∈ traced.session.current.resources,
    isVersioned row.2 = true →
      ∃ vcr ∈ traced.session.current.vcrs, vcr.resourceId = row.1
  settled : ∀ vcr ∈ traced.session.current.vcrs,
    vcr.resourceId ∉ traced.awaiting →
      InStep traced.session.current vcr ∧ Loads traced.session.current vcr
  awaiting : ∀ vcr ∈ traced.session.current.vcrs,
    vcr.resourceId ∈ traced.awaiting →
      AwaitsCheckin traced.session.current vcr ∧
        ∀ r : DavReposResource, r.serialno = vcr.resourceId →
          dbmsGetVcrProps traced.session.current r = .error
            ⟨httpInternalServerError, "Could not lookup version number"⟩
  memory : ∀ id resource, traced.session.held id = some resource →
    ∀ vcr ∈ traced.session.current.vcrs, vcr.resourceId = id →
      resource.dbR.checkedId = vcr.checkedId ∧
        resource.dbR.vrNum =
          (versionsOf traced.session.current vcr.vhrId).length
  committed : AllInStep traced.session.committed

theorem Consistent.allInStep
    (consistent : Consistent tables []) :
    AllInStep tables := by
  constructor
  · intro vhr member
    rcases consistent.vhrVcr vhr member with ⟨vcr, listed, same⟩
    rw [← same]
    exact consistent.numbered vcr listed
  · intro vcr member
    have settled : vcr.resourceId ∉ ([] : List Id) := List.not_mem_nil
    refine ⟨consistent.inStep vcr member settled, ?_⟩
    intro r serialno
    exact ⟨_, consistent.dbmsGetVcrProps_inStep member settled serialno, rfl,
      rfl⟩

theorem Invariant.inStepButAwaiting
    {traced : Traced}
    (invariant : Invariant traced) :
    InStepButAwaiting traced where
  numbered := by
    intro vhr member
    rcases invariant.current.vhrVcr vhr member with ⟨vcr, listed, same⟩
    rw [← same]
    exact invariant.current.numbered vcr listed
  controlled := invariant.current.controlled
  settled := by
    intro vcr member settled
    refine ⟨invariant.current.inStep vcr member settled, ?_⟩
    intro r serialno
    exact ⟨_, invariant.current.dbmsGetVcrProps_inStep member settled
      serialno, rfl, rfl⟩
  awaiting := by
    intro vcr member awaited
    refine ⟨invariant.current.awaits vcr member awaited, ?_⟩
    intro r serialno
    exact invariant.current.dbmsGetVcrProps_awaits member awaited serialno
  memory := by
    intro id resource held vcr member own
    rcases invariant.held id resource held with ⟨serial, agrees⟩
    rcases agrees.record vcr member (own.trans serial.symm) with
      ⟨checked, _, number⟩
    exact ⟨checked, number⟩
  committed := invariant.committed.allInStep

theorem invariant_throughout
    {traced : Traced}
    (invariant : Invariant traced)
    (steps : List Step) :
    Runs.Throughout after Invariant traced steps := by
  induction steps generalizing traced with
  | nil => exact invariant
  | cons taken steps induction =>
      exact ⟨invariant, induction (invariant.after taken)⟩

/-- Version numbers are in step after every step of every run. -/
theorem run_inStepButAwaiting
    (fresh : FreshTables)
    (steps : List Step) :
    Runs.Throughout after InStepButAwaiting fresh.start steps :=
  (invariant_throughout (invariant_start fresh.consistent) steps).imp
    fun _ invariant => invariant.inStepButAwaiting

/-- The root collection. -/
def rootOnly : FreshTables where
  resources := [(2, .collection)]
  nextId := 12
  resourcesPkey := by decide
  sequence := by decide
  nextPositive := by decide
  uncontrolled := by decide

/-- A resource that was created under version control has no version yet. -/
theorem run_not_allInStep :
    ¬ ∀ (fresh : FreshTables) (steps : List Step),
      Runs.Throughout after
        (fun traced => AllInStep traced.session.current) fresh.start
        steps := by
  intro throughout
  have created := (throughout rootOnly
    [.autoCreate false (some .checkoutCheckin) 2]).2
  let tables := (after rootOnly.start
    (.autoCreate false (some .checkoutCheckin) 2)).session.current
  have listed : (⟨12, 12, 13, .checkedIn, some .checkoutCheckin, false⟩ :
      Vcr) ∈ tables.vcrs := by
    decide
  have noVersion : versionsOf tables 13 = [] := by
    decide
  rcases (created.2 _ listed).1.root with ⟨version, belongs, _⟩
  have absent : version ∈ versionsOf tables 13 := belongs
  rw [noVersion] at absent
  cases absent

end Limestone.VersionHistories
