import Limestone.Checkin
import Mathlib.Data.List.DropRight

/-!
# Copies onto resources under version control: `sabridge_copy_if_compatible`

The types of the source and of the destination decide what is copied.  A medium
is copied onto a resource that is checked in only between a check-out and a
check-in, if its auto-versioning is for that, and not at all otherwise.
-/

namespace Limestone.CopyIfCompatible

open Library
open BridgeMkcol (Stop)
open BridgeProperty (DavReposResource)
open Checkin
open CopyMedium
open DbmsBind
open DbmsDeltav (AutoversionType CheckedState Vcr Version)
open GetResource
open InsertResource
open RestoreVcc
open VersionLinks (Libraries)

/-! ## The function -/

def cannotModify : DavError :=
  ⟨httpConflict, "DAV:cannot-modify-version-controlled-content"⟩

/-- A source that is a plain or a versioned medium. -/
def IsMedium (src : DavReposResource) : Prop :=
  src.resourcetype = some .resource ∨ src.resourcetype = some .versioned

instance (src : DavReposResource) : Decidable (IsMedium src) :=
  inferInstanceAs (Decidable (_ ∨ _))

/-- The first case: the check-out, and whether there is one. -/
def checkoutFirst (store : ContentStore) (src dst : DavReposResource) :
    Except Stop (ContentStore × DavReposResource × Bool) :=
  if IsMedium src ∧ dst.checkedState = .checkedIn then
    if dst.autoversionType = some .checkoutCheckin then do
      let (store, dst) ← davReposCheckout store dst
      return (store, dst, true)
    else .error (.davError cannotModify)
  else .ok (store, dst, false)

/-- The switches over the types; the flag is `*p_copied`. -/
def copyContent (request : Request) (store : ContentStore)
    (src dst : DavReposResource) :
    Except Stop (ContentStore × DavReposResource × Bool) :=
  match src.resourcetype with
  | some .resource | some .versioned | some .version =>
      match dst.resourcetype with
      | some .lockNull => do
          let (store, dst) ← sabridgeCreateEmptyBody request store dst
          let (store, dst) ← sabridgeCopyMedium request store src dst
          return (store, dst, true)
      | some .resource | some .versioned => do
          let (store, dst) ← sabridgeCopyMedium request store src dst
          return (store, dst, true)
      | _ => .ok (store, dst, false)
  | some .collection | some .versionedCollection =>
      match dst.resourcetype with
      | some .lockNull | some .collection | some .versionedCollection => do
          let (store, dst) ← sabridgeCopyCollection store src dst
          return (store, dst, true)
      | _ => .ok (store, dst, false)
  | _ => .ok (store, dst, false)

/-- `sabridge_copy_if_compatible`. -/
def sabridgeCopyIfCompatible (libraries : Libraries) (request : Request)
    (store : ContentStore) (src dst : DavReposResource) :
    Except Stop (ContentStore × DavReposResource × Bool) := do
  let (store, dst, checkin) ← checkoutFirst store src dst
  let (store, dst, copied) ← copyContent request store src dst
  if checkin then do
    let (store, dst) ← davReposCheckin libraries request store dst
    return (store, dst, copied)
  else return (store, dst, copied)

/-! ## What is to hold -/

/-- What the tables of the versions keep. -/
structure KeepsVersions (store : ContentStore) : Prop where
  /-- A resource is created with a name. -/
  named : ∀ row ∈ store.resources, row.displayname ≠ none
  historyType : ∀ vcr ∈ store.vcrs,
    typeOf store vcr.vhrId = some .versionHistory
  versionType : ∀ version ∈ store.versions,
    typeOf store version.resourceId = some .version ∨
      typeOf store version.resourceId = some .collectionVersion
  /-- A resource is checked in or out at the last of its versions. -/
  last : ∀ vcr ∈ store.vcrs, ∀ version ∈ store.versions,
    version.resourceId = vcr.checkedId → ∀ other ∈ store.versions,
      other.vcrId = vcr.resourceId → other.number ≤ version.number

/-- The content was changed between a check-out and a check-in. -/
structure VersionedChange (libraries : Libraries) (request : Request)
    (store after : ContentStore) (src dst : DavReposResource) (vcr : Vcr)
    (number : Int) : Prop where
  between : ∃ checkedOut out copied changed last,
    davReposCheckout store dst = .ok (checkedOut, out) ∧
      sabridgeCopyMedium request checkedOut src out = .ok (copied, changed) ∧
      davReposCheckin libraries request copied changed = .ok (after, last)
  versions : after.versions = store.versions ++
    [⟨store.nextId, number + 1, vcr.resourceId, vcr.vhrId⟩]
  vcrs : after.vcrs =
    store.vcrs.map (setState .checkedIn vcr.resourceId store.nextId)
  newVersion : after.content store.nextId = after.content vcr.resourceId
  previous : after.content vcr.checkedId = store.content vcr.checkedId
  others : ∀ id, id ≠ vcr.resourceId → id ≠ store.nextId →
    after.content id = store.content id

/-- The content is changed in a new version, or a conflict is reported. -/
def IsVersionedOrConflict (libraries : Libraries) (request : Request)
    (store : ContentStore) (src dst : DavReposResource) (vcr : Vcr)
    (number : Int) : Prop :=
  (∃ err, sabridgeCopyIfCompatible libraries request store src dst =
      .error (.davError err) ∧ err.status = httpConflict) ∨
    ∃ after, sabridgeCopyIfCompatible libraries request store src dst =
        .ok after ∧
      VersionedChange libraries request store after.1 src dst vcr number

/-- The pairs that the check-out was forgotten for. -/
def IsMissed (src dst : DavReposResource) : Prop :=
  src.resourcetype = some .version ∧ dst.resourcetype = some .versioned ∨
    (src.resourcetype = some .collection ∨
        src.resourcetype = some .versionedCollection) ∧
      dst.resourcetype = some .versionedCollection ∨
    IsMedium src ∧ dst.autoversionType = some .checkoutCheckin ∧
      dst.resourcetype = some .versionedCollection

/-- The collection of the versions, where the next one can be bound. -/
def HasCollection (store : ContentStore) (rootPath : Text) (vhrId : Id)
    (number : Int) : Prop :=
  ∃ collection,
    LeadsTo store.binds.rows (VersionLinks.historyDir [] vhrId) collection ∧
      IsNumbered store collection ∧
      collection ∈ store.resources.map BridgeProperty.ResourceRow.id ∧
      (collection, basename
        (VersionLinks.sabridgeMkVersionUri rootPath vhrId (number + 1))) ∉
          store.binds.rows.map Bind.key ∧
      (basename
        (VersionLinks.sabridgeMkVersionUri rootPath vhrId
          (number + 1))).length ≤ BridgeMkcol.maxNameLength

/-- What a copy onto a resource does that is checked in. -/
structure Respects (libraries : Libraries) (request : Request)
    (store : ContentStore) (rootPath : Text) (src dst : DavReposResource) :
    Prop where
  refuses : IsMedium src → dst.autoversionType ≠ some .checkoutCheckin →
    sabridgeCopyIfCompatible libraries request store src dst =
      .error (.davError cannotModify)
  changes : IsMedium src → dst.autoversionType = some .checkoutCheckin →
    ∀ after, sabridgeCopyIfCompatible libraries request store src dst =
        .ok after →
      after.2.2 = true ∧ ∃ vcr ∈ store.vcrs, vcr.resourceId = dst.serialno ∧
        VersionedChange libraries request store after.1 src dst vcr dst.vrNum
  succeeds : IsMedium src → dst.autoversionType = some .checkoutCheckin →
    src.displayname ≠ none →
    HasCollection store rootPath dst.vhrId dst.vrNum →
    ∃ after, sabridgeCopyIfCompatible libraries request store src dst =
      .ok after
  skips : ¬ IsMedium src →
    sabridgeCopyIfCompatible libraries request store src dst =
      .ok (store, dst, false)

/-! ## The cases -/

section Cases

variable {libraries : Libraries} {request : Request} {store : ContentStore}
  {src dst : DavReposResource}

theorem refuses_of_checkedIn
    (medium : IsMedium src)
    (checkedIn : dst.checkedState = .checkedIn)
    (other : dst.autoversionType ≠ some .checkoutCheckin) :
    sabridgeCopyIfCompatible libraries request store src dst =
      .error (.davError cannotModify) := by
  unfold sabridgeCopyIfCompatible checkoutFirst
  rw [if_pos ⟨medium, checkedIn⟩, if_neg other]
  rfl

/-- What is not a medium is copied neither onto a versioned one. -/
theorem copyContent_of_incompatible
    (noMedium : ¬ IsMedium src)
    (controlled : dst.resourcetype = some .versioned ∨
      dst.resourcetype = some .versionedCollection)
    (notMissed : ¬ IsMissed src dst) :
    copyContent request store src dst = .ok (store, dst, false) := by
  unfold copyContent
  split
  next type => exact (noMedium (Or.inl type)).elim
  next type => exact (noMedium (Or.inr type)).elim
  next type =>
      rcases controlled with versioned | collection
      · exact (notMissed (Or.inl ⟨type, versioned⟩)).elim
      · rw [collection]
  next type =>
      rcases controlled with versioned | collection
      · rw [versioned]
      · exact (notMissed (Or.inr (Or.inl ⟨Or.inl type, collection⟩))).elim
  next type =>
      rcases controlled with versioned | collection
      · rw [versioned]
      · exact (notMissed (Or.inr (Or.inl ⟨Or.inr type, collection⟩))).elim
  next => rfl

theorem skips_of_controlled
    (noMedium : ¬ IsMedium src)
    (controlled : dst.resourcetype = some .versioned ∨
      dst.resourcetype = some .versionedCollection)
    (notMissed : ¬ IsMissed src dst) :
    sabridgeCopyIfCompatible libraries request store src dst =
      .ok (store, dst, false) := by
  unfold sabridgeCopyIfCompatible checkoutFirst
  rw [if_neg fun both => noMedium both.1]
  show (copyContent request store src dst >>= _) = _
  rw [copyContent_of_incompatible noMedium controlled notMissed]
  rfl

theorem copyContent_of_medium
    (medium : IsMedium src)
    (versioned : dst.resourcetype = some .versioned) :
    copyContent request store src dst =
      (sabridgeCopyMedium request store src dst).map fun copied =>
        (copied.1, copied.2, true) := by
  unfold copyContent
  rcases medium with type | type
  · rw [type, versioned]
    cases sabridgeCopyMedium request store src dst <;> rfl
  · rw [type, versioned]
    cases sabridgeCopyMedium request store src dst <;> rfl

end Cases

/-! ## A new version -/

section Change

variable {libraries : Libraries} {request : Request}
  {store copied after : ContentStore} {rootPath : Text}
  {src dst changed last : DavReposResource} {vcr : Vcr} {version : Version}

/-- A check-in overwrites what a check-out has written. -/
theorem setState_setState
    (first second : CheckedState) (serialno firstId secondId : Id)
    (row : Vcr) :
    setState second serialno secondId (setState first serialno firstId row) =
      setState second serialno secondId row := by
  unfold setState
  by_cases same : row.resourceId = serialno
  · rw [if_pos same, if_pos same, if_pos same]
  · rw [if_neg same, if_neg same]

/-- The rows that a destination is read from while it is checked in. -/
structure IsDestination (store : ContentStore) (rootPath : Text) (vcr : Vcr)
    (version : Version) (dst : DavReposResource) : Prop where
  keeps : KeepsVersions store
  listed : vcr ∈ store.vcrs
  versionListed : version ∈ store.versions
  isVersion : version.resourceId = vcr.checkedId
  checkedIn : vcr.checkedState = .checkedIn
  isVersioned : typeOf store vcr.resourceId = some .versioned
  isRecord : IsVcrRecord store rootPath vcr version.number dst

theorem IsDestination.checkedId_pos
    (dest : IsDestination store rootPath vcr version dst) :
    0 < vcr.checkedId := by
  rw [← dest.isVersion]
  rcases dest.keeps.versionType version dest.versionListed with type | type
  · exact typeOf_pos type
  · exact typeOf_pos type

/-- An id with a type is not the one that comes next. -/
theorem ne_nextId_of_typeOf
    {id : Id} {type : ResourceType}
    (isType : typeOf store id = some type) : id ≠ store.nextId := by
  rcases mem_of_typeOf isType with ⟨row, listed, same⟩
  exact same ▸ ne_nextId listed

theorem IsDestination.checkedId_ne
    (dest : IsDestination store rootPath vcr version dst) :
    vcr.checkedId ≠ vcr.resourceId ∧ vcr.checkedId ≠ store.nextId := by
  have type := dest.keeps.versionType version dest.versionListed
  rw [dest.isVersion] at type
  constructor
  · intro same
    rw [same, dest.isVersioned] at type
    rcases type with other | other
    · cases other
    · cases other
  · rcases type with type | type
    · exact ne_nextId_of_typeOf type
    · exact ne_nextId_of_typeOf type

theorem IsDestination.unnumbered
    (dest : IsDestination store rootPath vcr version dst) :
    ∀ other ∈ store.versions, other.vcrId = vcr.resourceId →
      other.number ≠ version.number + 1 := by
  intro other listed same isNext
  have bound := dest.keeps.last vcr dest.listed version dest.versionListed
    dest.isVersion other listed same
  rw [isNext] at bound
  exact Int.not_lt.mpr bound (Int.lt_succ version.number)

/-- The store while the destination is checked out. -/
def checkedOutStore (store : ContentStore) (vcr : Vcr) : ContentStore :=
  { store with
    vcrs := store.vcrs.map
      (setState .checkedOut vcr.resourceId vcr.checkedId) }

theorem IsDestination.checkout
    (dest : IsDestination store rootPath vcr version dst) :
    davReposCheckout store dst =
      .ok (checkedOutStore store vcr,
        { dst with checkedState := .checkedOut }) :=
  davReposCheckout_of_checkedIn dest.isRecord dest.checkedIn
    (dest.keeps.historyType vcr dest.listed)
    (Int.ne_of_gt dest.checkedId_pos)

/-- The record of the destination after the copy. -/
structure IsCopiedRecord (dst changed : DavReposResource) : Prop where
  serialno : changed.serialno = dst.serialno
  rootPath : changed.rootPath = dst.rootPath
  resourcetype : changed.resourcetype = dst.resourcetype
  checkedState : changed.checkedState = .checkedOut
  vhrId : changed.vhrId = dst.vhrId
  vrNum : changed.vrNum = dst.vrNum

theorem isCopiedRecord_of_copied
    (copies : sabridgeCopyMedium request (checkedOutStore store vcr) src
      { dst with checkedState := .checkedOut } = .ok (copied, changed)) :
    IsCopiedRecord dst changed := by
  rcases sabridgeCopyMedium_dest copies with ⟨-, isDest⟩
  rw [isDest]
  exact ⟨rfl, rfl, rfl, rfl, rfl, rfl⟩

theorem versionedChange_of_steps
    (dest : IsDestination store rootPath vcr version dst)
    (copies : sabridgeCopyMedium request (checkedOutStore store vcr) src
      { dst with checkedState := .checkedOut } = .ok (copied, changed))
    (checksIn : davReposCheckin libraries request copied changed =
      .ok (after, last)) :
    VersionedChange libraries request store after src dst vcr
      version.number := by
  have record := isCopiedRecord_of_copied copies
  rcases sabridgeCopyMedium_dest copies with ⟨isNextId, isDest⟩
  rcases sabridgeCopyMedium_spec copies with ⟨name, destName, spec⟩
  have nextId : copied.nextId = store.nextId := isNextId
  have serialno : changed.serialno = vcr.resourceId :=
    record.serialno.trans dest.isRecord.serialno
  have number : changed.vrNum = version.number :=
    record.vrNum.trans dest.isRecord.vrNum
  have vhrId : changed.vhrId = vcr.vhrId :=
    record.vhrId.trans dest.isRecord.vhrId
  have versioned : changed.resourcetype = some .versioned :=
    (record.resourcetype.trans dest.isRecord.resourcetype).trans
      dest.isVersioned
  have versions : copied.versions = store.versions := spec.sameGraph.versions
  have other : vcr.resourceId ≠ store.nextId :=
    ne_nextId_of_typeOf dest.isVersioned
  have isDestId : dst.serialno = vcr.resourceId := dest.isRecord.serialno
  have effect := davReposCheckin_spec versioned
    (by rw [serialno, nextId]; exact other)
    (by rw [versions, serialno, number]; exact dest.unnumbered) checksIn
  have kept (id : Id) (isOther : id ≠ vcr.resourceId)
      (isOld : id ≠ store.nextId) : after.content id = store.content id :=
    (effect.others id (nextId.symm ▸ isOld)).trans
      (spec.others id (isDestId.symm ▸ isOther))
  constructor
  case between =>
      exact ⟨_, _, _, _, _, dest.checkout, copies, checksIn⟩
  case versions =>
      rw [effect.versions, versions, nextVersion, nextId, number, serialno,
        vhrId]
  case vcrs =>
      have vcrs : copied.vcrs = store.vcrs.map
          (setState .checkedOut vcr.resourceId vcr.checkedId) :=
        spec.sameGraph.vcrs
      rw [effect.vcrs, vcrs, serialno, nextId, List.map_map]
      apply List.map_congr_left
      intro row _
      exact setState_setState _ _ _ _ _ row
  case newVersion =>
      rw [← nextId, effect.newVersion, serialno,
        effect.others vcr.resourceId (nextId.symm ▸ other)]
      apply Content.ext
      · show changed.displayname = copied.displayname vcr.resourceId
        have present : vcr.resourceId ∈
            (checkedOutStore store vcr).resources.map
              BridgeProperty.ResourceRow.id :=
          List.mem_map.mpr (mem_of_typeOf dest.isVersioned)
        have displayname := spec.displayname (isDestId.symm ▸ present)
        have isDestName : store.displayname vcr.resourceId = some destName := by
          rw [← readDisplayname_eq dest.keeps.named,
            ← dest.isRecord.displayname]
          exact spec.isDestName
        have isName : changed.displayname = some name := by
          rw [isDest]
          exact spec.isName
        have stored : copied.displayname vcr.resourceId =
            if name = destName then store.displayname vcr.resourceId
            else some name :=
          isDestId ▸ displayname
        rw [stored, isName, isDestName]
        by_cases same : name = destName
        · rw [if_pos same, same]
        · rw [if_neg same]
      · rfl
      · rfl
  case previous => exact kept _ dest.checkedId_ne.1 dest.checkedId_ne.2
  case others => exact kept

end Change

/-! ## The collection of the versions -/

section Collection

variable {libraries : Libraries} {request : Request}
  {store copied : ContentStore} {rootPath : Text} {vhrId collection : Id}
  {number : Int} {src dst changed r : DavReposResource} {vcr : Vcr}
  {version : Version}

theorem historyDir_eq (rootPath : Text) (vhrId : Id) :
    VersionLinks.historyDir rootPath vhrId =
      rootPath ++ VersionLinks.historyDir [] vhrId := by
  unfold VersionLinks.historyDir
  rw [List.nil_append, List.append_assoc]

theorem chompTrailingSlash_historyDir (rootPath : Text) (vhrId : Id) :
    chompTrailingSlash (VersionLinks.historyDir rootPath vhrId ++ ['/']) =
      VersionLinks.historyDir rootPath vhrId := by
  have long : 1 < (VersionLinks.historyDir rootPath vhrId ++ ['/']).length := by
    rw [historyDir_eq, VersionLinks.historyDir]
    simp
    omega
  have noSlash : List.rdropWhile (fun char => char == '/')
      (VersionLinks.historyDir rootPath vhrId) =
        VersionLinks.historyDir rootPath vhrId := by
    apply List.rdropWhile_eq_self_iff.mpr
    intro nonempty slash
    apply VersionLinks.historyDir_ne rootPath vhrId
      (VersionLinks.historyDir rootPath vhrId).dropLast
    rw [← beq_iff_eq.mp slash, List.dropLast_append_getLast]
  unfold chompTrailingSlash
  rw [if_pos long]
  show List.rdropWhile (fun char => char == '/') _ = _
  rw [List.rdropWhile_concat_pos _ _ _ rfl, noSlash]

/-- The parent of the URI of a version is the collection of its history. -/
theorem findParent_of_history
    (isRoot : r.rootPath = some rootPath)
    (isUri : r.uri =
      some (VersionLinks.sabridgeMkVersionUri rootPath vhrId number))
    (leads : LeadsTo store.binds.rows (VersionLinks.historyDir [] vhrId)
      collection)
    (numbered : IsNumbered store collection) :
    ∃ parent, findParent libraries store 0 r = .ok (some parent) ∧
      parent.serialno = collection := by
  rcases (@getResource_isOk_iff store rootPath _ _ leads).mpr numbered with
    ⟨parent, read⟩
  refine ⟨parent, ?_, (isRecordOf_getResource leads read).serialno⟩
  have dir : libraries.makeDirstrParent
      (VersionLinks.sabridgeMkVersionUri rootPath vhrId number) =
        VersionLinks.historyDir rootPath vhrId ++ ['/'] :=
    libraries.dirstr_append _ _ (VersionLinks.slash_not_mem_toString number)
  have noRoot :
      VersionLinks.sabridgeMkVersionUri rootPath vhrId number ≠ ['/'] := by
    intro same
    have length := congrArg List.length same
    rw [VersionLinks.sabridgeMkVersionUri, historyDir_eq,
      VersionLinks.historyDir] at length
    simp at length
    omega
  have isParent : sabridgeGetProperty store
      { rootPath := some rootPath
        uri := some (VersionLinks.historyDir rootPath vhrId) } =
          .ok parent := by
    rw [historyDir_eq]
    exact read
  unfold findParent sabridgeRetrieveParent retrieveParent
  rw [if_neg (by decide), isUri]
  simp only [if_neg noRoot, dir, chompTrailingSlash_historyDir, isRoot,
    isParent]
  rfl

/-- A check-out at a version that exists leaves the numbers to be found. -/
theorem isNumbered_of_setState
    {state : CheckedState} {serialno checkedId id : Id}
    (types : ∀ id, typeOf copied id = typeOf store id)
    (vcrs : copied.vcrs = store.vcrs.map (setState state serialno checkedId))
    (versions : copied.versions = store.versions)
    (listed : checkedId ∈ store.versions.map Version.resourceId)
    (numbered : IsNumbered store id) : IsNumbered copied id := by
  intro versioned row found
  rw [types] at versioned
  rw [vcrs, List.find?_map] at found
  rcases Option.map_eq_some_iff.mp found with ⟨old, isOld, rfl⟩
  have sameId (row : Vcr) :
      (setState state serialno checkedId row).resourceId =
        row.resourceId := by
    unfold setState
    split <;> rfl
  have isFirst : (store.vcrs.find? fun row => row.resourceId == id) =
      some old := by
    rw [← isOld]
    congr 1
    funext row
    rw [Function.comp_apply, sameId]
  rw [versions]
  unfold setState
  split
  · exact listed
  · exact numbered versioned old isFirst

/-- A copied medium is checked in where the next version can be bound. -/
theorem davReposCheckin_of_copied
    (dest : IsDestination store rootPath vcr version dst)
    (copies : sabridgeCopyMedium request (checkedOutStore store vcr) src
      { dst with checkedState := .checkedOut } = .ok (copied, changed))
    (hasCollection : HasCollection store rootPath vcr.vhrId version.number) :
    ∃ result, davReposCheckin libraries request copied changed =
      .ok result := by
  have record := isCopiedRecord_of_copied copies
  rcases sabridgeCopyMedium_dest copies with ⟨isNextId, isDest⟩
  rcases sabridgeCopyMedium_spec copies with ⟨name, destName, spec⟩
  rcases hasCollection with
    ⟨collection, leads, numbered, isResource, fresh, short⟩
  have isName : changed.displayname = some name := by
    rw [isDest]
    exact spec.isName
  have isRoot : changed.rootPath = some rootPath :=
    record.rootPath.trans dest.isRecord.rootPath
  have isVhrId : changed.vhrId = vcr.vhrId :=
    record.vhrId.trans dest.isRecord.vhrId
  have isNumber : changed.vrNum = version.number :=
    record.vrNum.trans dest.isRecord.vrNum
  have serialno : changed.serialno = vcr.resourceId :=
    record.serialno.trans dest.isRecord.serialno
  have versioned : changed.resourcetype = some .versioned :=
    (record.resourcetype.trans dest.isRecord.resourcetype).trans
      dest.isVersioned
  have types (id : Id) : typeOf copied id = typeOf store id :=
    typeOf_of_sameGraph spec.sameGraph id
  have binds : copied.binds = store.binds := spec.sameGraph.binds
  have versions : copied.versions = store.versions := spec.sameGraph.versions
  have nextId : copied.nextId = store.nextId := isNextId
  have history := dest.keeps.historyType vcr dest.listed
  have readsVhr : ∃ vhr, getVhr copied changed = .ok vhr ∧
      IsRecordOf copied rootPath vcr.vhrId vhr := by
    apply sabridgeGetProperty_isOk_of_id
    · exact ⟨isVhrId, isRoot, rfl, rfl, rfl⟩
    · exact Int.ne_of_gt (typeOf_pos history)
    · rw [types, history]
      decide
  rcases readsVhr with ⟨vhr, isVhr, vhrRecord⟩
  have isUri : VersionLinks.sabridgeMkVersionUri (vhr.rootPath.getD [])
      vhr.serialno (changed.vrNum + 1) =
        VersionLinks.sabridgeMkVersionUri rootPath vcr.vhrId
          (version.number + 1) := by
    rw [vhrRecord.rootPath, vhrRecord.serialno, isNumber]
    rfl
  rcases @findParent_of_history libraries copied rootPath vcr.vhrId collection
    (version.number + 1) (versionRecord changed vhr (changed.vrNum + 1))
    isRoot (congrArg some isUri) (binds ▸ leads)
    (isNumbered_of_setState types spec.sameGraph.vcrs versions
      (dest.isVersion ▸ List.mem_map_of_mem dest.versionListed) numbered)
    with ⟨parent, found, isParent⟩
  have room : HasRoom libraries copied changed vhr parent :=
    { found := found
      collection := by
        rw [isParent, spec.sameGraph.ids]
        exact isResource
      fresh := by
        rw [isParent, isUri, binds]
        exact fresh
      short := by
        rw [isUri]
        exact short }
  apply davReposCheckin_isOk versioned record.checkedState isName isVhr room
  case other =>
      rw [serialno, nextId]
      exact ne_nextId_of_typeOf dest.isVersioned
  case unnumbered =>
      rw [versions, serialno, isNumber]
      exact dest.unnumbered
  case noVersion =>
      rw [versions, nextId]
      intro other listed
      rcases dest.keeps.versionType other listed with type | type
      · exact ne_nextId_of_typeOf type
      · exact ne_nextId_of_typeOf type

end Collection

/-! ## All pairs of types -/

section Pairs

variable {libraries : Libraries} {request : Request} {store : ContentStore}
  {rootPath uri : Text} {id : Id} {src dst : DavReposResource} {vcr : Vcr}
  {version : Version}

/-- The rows of a medium that is read as checked in. -/
theorem exists_isDestination
    (keeps : KeepsVersions store)
    (leads : LeadsTo store.binds.rows uri id)
    (read : getResource store rootPath uri = .ok dst)
    (checkedIn : dst.checkedState = .checkedIn)
    (versioned : dst.resourcetype = some .versioned) :
    ∃ vcr version, IsDestination store rootPath vcr version dst := by
  have isVersioned : typeOf store id = some .versioned :=
    (isRecordOf_getResource leads read).resourcetype.symm.trans versioned
  rcases exists_vcr_of_checkedState leads isVersioned read
    (by rw [checkedIn]; decide) with
      ⟨vcr, version, found, foundVersion, isId, isRecord⟩
  have same := List.find?_some foundVersion
  rw [beq_iff_eq] at same
  exact ⟨vcr, version,
    { keeps := keeps
      listed := List.mem_of_find?_eq_some found
      versionListed := List.mem_of_find?_eq_some foundVersion
      isVersion := same
      checkedIn := isRecord.checkedState.symm.trans checkedIn
      isVersioned := isId.symm ▸ isVersioned
      isRecord := isRecord }⟩

/-- The copy between the check-out and the check-in. -/
theorem sabridgeCopyIfCompatible_of_auto
    (medium : IsMedium src)
    (automatic : dst.autoversionType = some .checkoutCheckin)
    (dest : IsDestination store rootPath vcr version dst) :
    sabridgeCopyIfCompatible libraries request store src dst =
      (sabridgeCopyMedium request (checkedOutStore store vcr) src
        { dst with checkedState := .checkedOut } >>= fun copied =>
          (davReposCheckin libraries request copied.1 copied.2).map
            fun checkedIn => (checkedIn.1, checkedIn.2, true)) := by
  have state : dst.checkedState = .checkedIn :=
    dest.isRecord.checkedState.trans dest.checkedIn
  have versioned : dst.resourcetype = some .versioned :=
    dest.isRecord.resourcetype.trans dest.isVersioned
  unfold sabridgeCopyIfCompatible checkoutFirst
  rw [if_pos ⟨medium, state⟩, if_pos automatic, dest.checkout]
  show (copyContent request (checkedOutStore store vcr) src
    { dst with checkedState := .checkedOut } >>= _) = _
  rw [@copyContent_of_medium request (checkedOutStore store vcr) src
    { dst with checkedState := .checkedOut } medium versioned]
  cases sabridgeCopyMedium request (checkedOutStore store vcr) src
    { dst with checkedState := .checkedOut } with
  | error err => rfl
  | ok copied =>
      show (davReposCheckin libraries request copied.1 copied.2 >>= _) =
        (davReposCheckin libraries request copied.1 copied.2).map _
      cases davReposCheckin libraries request copied.1 copied.2 <;> rfl

theorem changes_of_auto
    (medium : IsMedium src)
    (automatic : dst.autoversionType = some .checkoutCheckin)
    (dest : IsDestination store rootPath vcr version dst)
    {after : ContentStore × DavReposResource × Bool}
    (copied : sabridgeCopyIfCompatible libraries request store src dst =
      .ok after) :
    after.2.2 = true ∧ ∃ vcr ∈ store.vcrs, vcr.resourceId = dst.serialno ∧
      VersionedChange libraries request store after.1 src dst vcr
        dst.vrNum := by
  rw [sabridgeCopyIfCompatible_of_auto medium automatic dest] at copied
  rcases bind_eq_ok.mp copied with ⟨⟨middle, changed⟩, copies, rest⟩
  cases checksIn : davReposCheckin libraries request middle changed with
  | error err =>
      rw [checksIn] at rest
      cases rest
  | ok checkedIn =>
      rw [checksIn] at rest
      rcases Except.ok.inj rest with rfl
      have change := versionedChange_of_steps dest copies checksIn
      rw [← dest.isRecord.vrNum] at change
      exact ⟨rfl, vcr, dest.listed, dest.isRecord.serialno.symm, change⟩

theorem succeeds_of_auto
    (medium : IsMedium src)
    (automatic : dst.autoversionType = some .checkoutCheckin)
    (dest : IsDestination store rootPath vcr version dst)
    (named : src.displayname ≠ none)
    (hasCollection : HasCollection store rootPath dst.vhrId dst.vrNum) :
    ∃ after, sabridgeCopyIfCompatible libraries request store src dst =
      .ok after := by
  rw [dest.isRecord.vhrId, dest.isRecord.vrNum] at hasCollection
  have destNamed : dst.displayname ≠ none := by
    rw [dest.isRecord.displayname, readDisplayname_eq dest.keeps.named]
    exact displayname_ne_none dest.keeps.named dest.isVersioned
  rcases Option.ne_none_iff_exists'.mp named with ⟨name, isName⟩
  rcases Option.ne_none_iff_exists'.mp destNamed with ⟨destName, isDestName⟩
  have present : dst.serialno ∈ (checkedOutStore store vcr).resources.map
      BridgeProperty.ResourceRow.id := by
    rw [dest.isRecord.serialno]
    exact List.mem_map.mpr (mem_of_typeOf dest.isVersioned)
  rcases @sabridgeCopyMedium_isOk request (checkedOutStore store vcr) src
    { dst with checkedState := .checkedOut } name destName isName isDestName
    present with ⟨⟨copied, changed⟩, copies⟩
  rcases @davReposCheckin_of_copied libraries request store copied rootPath
    src dst changed vcr version dest copies hasCollection with
      ⟨result, checksIn⟩
  refine ⟨(result.1, result.2, true), ?_⟩
  rw [sabridgeCopyIfCompatible_of_auto medium automatic dest, copies]
  show (davReposCheckin libraries request copied changed).map _ = _
  rw [checksIn]
  rfl

/-- A copy onto a resource that is checked in respects its versions. -/
theorem respects
    (keeps : KeepsVersions store)
    (leads : LeadsTo store.binds.rows uri id)
    (read : getResource store rootPath uri = .ok dst)
    (checkedIn : dst.checkedState = .checkedIn)
    (controlled : dst.resourcetype = some .versioned ∨
      dst.resourcetype = some .versionedCollection)
    (notMissed : ¬ IsMissed src dst) :
    Respects libraries request store rootPath src dst := by
  have isDestination (medium : IsMedium src)
      (automatic : dst.autoversionType = some .checkoutCheckin) :
      ∃ vcr version, IsDestination store rootPath vcr version dst := by
    apply exists_isDestination keeps leads read checkedIn
    rcases controlled with versioned | collection
    · exact versioned
    · exact (notMissed (Or.inr (Or.inr
        ⟨medium, automatic, collection⟩))).elim
  constructor
  case refuses => exact fun medium => refuses_of_checkedIn medium checkedIn
  case changes =>
      intro medium automatic after copied
      rcases isDestination medium automatic with ⟨vcr, version, dest⟩
      exact changes_of_auto medium automatic dest copied
  case succeeds =>
      intro medium automatic named hasCollection
      rcases isDestination medium automatic with ⟨vcr, version, dest⟩
      exact succeeds_of_auto medium automatic dest named hasCollection
  case skips =>
      exact fun noMedium => skips_of_controlled noMedium controlled notMissed

end Pairs

/-! ## One medium and one collection that are checked in -/

def checkedInRows : List BridgeProperty.ResourceRow :=
  [namedRow 2 "" .collection, namedRow 3 "m" .versioned,
    namedRow 4 "4" .versionHistory, namedRow 5 "2" .version,
    namedRow 6 "history" .collection, namedRow 7 "4" .collection,
    namedRow 8 "c" .versionedCollection, namedRow 9 "9" .versionHistory,
    namedRow 10 "1" .collectionVersion, namedRow 11 "9" .collection,
    namedRow 12 "s" .resource, namedRow 13 "1" .version]

def checkedInBinds : BindTable where
  rows := [⟨1, "m".toList, 2, 3, none⟩, ⟨2, "history".toList, 2, 6, none⟩,
    ⟨3, "4".toList, 6, 7, none⟩, ⟨4, "1".toList, 7, 13, none⟩,
    ⟨5, "2".toList, 7, 5, none⟩, ⟨6, "c".toList, 2, 8, none⟩,
    ⟨7, "9".toList, 6, 11, none⟩, ⟨8, "1".toList, 11, 10, none⟩,
    ⟨9, "s".toList, 2, 12, none⟩]
  pkey := by decide
  collectionIdKey := by decide
  positive := by decide

/-- `/m` is at its second version and `/c` at its first; `/s` is a medium. -/
def checkedInStore : ContentStore where
  binds := checkedInBinds
  resources := checkedInRows
  redirectrefs := []
  collections := []
  media :=
    [⟨3, 1, none, "b".toList⟩, ⟨5, 1, none, "b".toList⟩,
      ⟨12, 1, none, "c".toList⟩, ⟨13, 1, none, "a".toList⟩]
  principals := []
  versions := [⟨13, 1, 3, 4⟩, ⟨5, 2, 3, 4⟩, ⟨10, 1, 8, 9⟩]
  vhrs := [⟨4, 13⟩, ⟨9, 10⟩]
  vcrs :=
    [⟨3, 5, 4, .checkedIn, some .checkoutCheckin, false⟩,
      ⟨8, 10, 9, .checkedIn, some .checkoutCheckin, false⟩]
  nextId := 14
  nextIdPos := by decide
  ids := by decide
  pkey := by decide
  nextBindId := 10
  nextBindIdPos := by decide
  bindIds := by decide
  dead :=
    { properties := []
      nextId := 1
      namespaces := []
      resources := [2, 3, 4, 5, 6, 7, 8, 9, 10, 11, 12, 13]
      namespaceKeys := List.nodup_nil
      namespaceExists := DbmsProperties.noProperties_namespaceExists }
  deadResources := by decide
  files := ["a".toList, "b".toList, "c".toList]

theorem keepsVersions_checkedInStore : KeepsVersions checkedInStore where
  named := by
    show ∀ row ∈ checkedInRows, row.displayname ≠ none
    decide
  historyType := by decide
  versionType := by decide
  last := by decide

/-- The record that is read for a URI of the store. -/
def recordAt (uri : String) : DavReposResource :=
  match getResource checkedInStore [] uri.toList with
  | .ok record => record
  | .error _ => {}

theorem read_recordAt
    {uri : String} (named : (recordAt uri).displayname ≠ none) :
    getResource checkedInStore [] uri.toList = .ok (recordAt uri) := by
  unfold recordAt at named ⊢
  cases read : getResource checkedInStore [] uri.toList with
  | ok record => rfl
  | error err =>
      rw [read] at named
      exact absurd rfl named

theorem respects_recordAt :
    ∃ after, sabridgeCopyIfCompatible VersionLinks.apacheLibraries someRequest
        checkedInStore (recordAt "/s") (recordAt "/m") = .ok after ∧
      after.2.2 = true ∧ ∃ vcr ∈ checkedInStore.vcrs,
        vcr.resourceId = (recordAt "/m").serialno ∧
          VersionedChange VersionLinks.apacheLibraries someRequest
            checkedInStore after.1 (recordAt "/s") (recordAt "/m") vcr
            (recordAt "/m").vrNum := by
  have leads : LeadsTo checkedInStore.binds.rows "/m".toList 3 :=
    ⟨by decide, by decide, by decide⟩
  have medium : IsMedium (recordAt "/s") := by decide +kernel
  have automatic : (recordAt "/m").autoversionType =
      some .checkoutCheckin := by
    decide +kernel
  have checkedIn : (recordAt "/m").checkedState = .checkedIn := by
    decide +kernel
  have versioned : (recordAt "/m").resourcetype = some .versioned := by
    decide +kernel
  have named : (recordAt "/s").displayname ≠ none := by decide +kernel
  have destNamed : (recordAt "/m").displayname ≠ none := by decide +kernel
  have notMissed : ¬ IsMissed (recordAt "/s") (recordAt "/m") := by
    unfold IsMissed
    decide +kernel
  have copies := @respects VersionLinks.apacheLibraries someRequest
    checkedInStore [] "/m".toList 3 (recordAt "/s") (recordAt "/m")
    keepsVersions_checkedInStore leads (read_recordAt destNamed) checkedIn
    (Or.inl versioned) notMissed
  have hasCollection : HasCollection checkedInStore []
      (recordAt "/m").vhrId (recordAt "/m").vrNum := by
    have isVhr : (recordAt "/m").vhrId = 4 := by decide +kernel
    have isNumber : (recordAt "/m").vrNum = 2 := by decide +kernel
    rw [isVhr, isNumber]
    refine ⟨7, ⟨by decide, by decide, by decide⟩, ?_, by decide, by decide,
      by decide⟩
    rintro (versioned | versioned)
    · cases versioned
    · cases versioned
  rcases copies.succeeds medium automatic named hasCollection with
    ⟨after, copied⟩
  exact ⟨after, copied, copies.changes medium automatic after copied⟩

/-- The names of the resource that comes next and of the destination. -/
def copiedNames (src dst : DavReposResource) :
    Option (Option Text × Option Text) :=
  match sabridgeCopyIfCompatible VersionLinks.apacheLibraries someRequest
      checkedInStore src dst with
  | .ok after =>
      some (after.1.displayname checkedInStore.nextId,
        after.1.displayname dst.serialno)
  | .error _ => none

/-- A version has the name of its resource. -/
theorem not_isVersionedOrConflict_of_names
    {src dst : DavReposResource} {vcr : Vcr} {number : Int}
    {newName name : Option Text}
    (isId : vcr.resourceId = dst.serialno)
    (names : copiedNames src dst = some (newName, name))
    (differ : newName ≠ name) :
    ¬ IsVersionedOrConflict VersionLinks.apacheLibraries someRequest
      checkedInStore src dst vcr number := by
  unfold copiedNames at names
  rintro (⟨err, conflict, -⟩ | ⟨after, copied, change⟩)
  · rw [conflict] at names
    cases names
  · rw [copied] at names
    rcases Prod.mk.inj (Option.some.inj names) with ⟨rfl, rfl⟩
    have same := congrArg Content.displayname change.newVersion
    rw [isId] at same
    exact differ same

/--
A collection is not copied onto a medium and no conflict is reported, and three
pairs of types are not covered by the check-out.
-/
theorem not_isVersionedOrConflict :
    let isVersioned := fun src dst vcr => IsVersionedOrConflict
      VersionLinks.apacheLibraries someRequest checkedInStore (recordAt src)
      (recordAt dst) vcr (recordAt dst).vrNum
    let medium : Vcr := ⟨3, 5, 4, .checkedIn, some .checkoutCheckin, false⟩
    let collection : Vcr :=
      ⟨8, 10, 9, .checkedIn, some .checkoutCheckin, false⟩
    (∀ vcr ∈ [medium, collection], vcr ∈ checkedInStore.vcrs) ∧
      ¬ isVersioned "/history" "/m" medium ∧
      ¬ isVersioned "/history/4/1" "/m" medium ∧
      ¬ isVersioned "/history" "/c" collection ∧
      ¬ isVersioned "/s" "/c" collection := by
  have names :
      copiedNames (recordAt "/history") (recordAt "/m") =
          some (none, some "m".toList) ∧
        copiedNames (recordAt "/history/4/1") (recordAt "/m") =
          some (none, some "1".toList) ∧
        copiedNames (recordAt "/history") (recordAt "/c") =
          some (none, some "history".toList) ∧
        copiedNames (recordAt "/s") (recordAt "/c") =
          some (some "2".toList, some "c".toList) := by
    decide +kernel
  have isMedium : 3 = (recordAt "/m").serialno := by decide +kernel
  have isCollection : 8 = (recordAt "/c").serialno := by decide +kernel
  rcases names with ⟨unchanged, fromVersion, fromCollection, fromMedium⟩
  refine ⟨by decide, ?_, ?_, ?_, ?_⟩
  · exact not_isVersionedOrConflict_of_names isMedium unchanged (by decide)
  · exact not_isVersionedOrConflict_of_names isMedium fromVersion (by decide)
  · exact not_isVersionedOrConflict_of_names isCollection fromCollection
      (by decide)
  · exact not_isVersionedOrConflict_of_names isCollection fromMedium
      (by decide)

end Limestone.CopyIfCompatible
