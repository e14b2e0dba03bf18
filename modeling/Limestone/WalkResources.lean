import Limestone.Library.Visit
import Limestone.ListingOrder

/-!
# Walking over resources: `dav_repos_walk`

The resource and what is listed below it are given to a function of the
caller, one after the other, until it returns an error.  A walk that ignores
binds leaves out the items that point to an item before them, so that each
resource is met once, at its first place, and behind its collection.
-/

namespace Limestone.WalkResources

open Library
open DbmsAcl
open DbmsBind
open DbmsCollection
open CollectionChildren
open ListingOrder

/-! ## The walk -/

/-- `DAV_CALLTYPE_COLLECTION` and `DAV_CALLTYPE_MEMBER`. -/
inductive CallType where
  | collection
  | member
deriving DecidableEq, Repr

/-- A call of the function: the resource and the type of the call. -/
structure Call where
  resource : DavReposResource
  callType : CallType
deriving DecidableEq, Repr

/-- What is read of the `dav_walk_params`. -/
structure WalkParams where
  /-- `DAV_WALKTYPE_AUTH`. -/
  auth : Bool
  /-- `DAV_WALKTYPE_IGNORE_BINDS`. -/
  ignoreBinds : Bool
  /-- `response` is not NULL. -/
  hasResponse : Bool

/--
The function of the caller: it works on the `walk_ctx` and on the response
that it is given.
-/
abbrev WalkFunc (Context Response : Type) :=
  Context → Option Response → Call → Context × Option Response × Option DavError

/-- What a walk leaves, and the calls that it has made. -/
structure Walked (Context Response : Type) where
  context : Context
  /-- `*response`. -/
  response : Option Response
  calls : List Call

def callOf (resource : DavReposResource) : Call where
  resource := resource
  callType := if resource.resourcetype.isCollection then .collection else .member

section Walk

variable {Context Response : Type}

/-- An item that is left out, as its resource has been met before. -/
def WalkParams.skips (params : WalkParams) (entry : Entry) : Bool :=
  params.ignoreBinds && entry.2.isSome

/-- The body of the loop. -/
def walkStep (params : WalkParams) (func : WalkFunc Context Response)
    (state : Walked Context Response) (entry : Entry) :
    Walked Context Response × Option DavError :=
  if params.skips entry then (state, none)
  else
    let wres := func state.context
      (if params.hasResponse then state.response else none) (callOf entry.1)
    ({ context := wres.1
       response :=
        if params.hasResponse && (wres.2.2.isNone || wres.2.1.isSome) then
          wres.2.1
        else state.response
       calls := state.calls ++ [callOf entry.1] },
      wres.2.2)

/-- What is listed below a resource; `none` while the listing is running. -/
def walkList (fuel : Nat) (order : Sql.RowOrder MemberRow)
    (tables : RepoTables) (grantdeny : Option (Bind → Option Char))
    (dbR : DavReposResource) (depth : Depth) : Option (List Entry) :=
  if dbR.resourcetype.isCollection = true ∧ depth ≠ .zero then
    (sabridgeGetCollectionChildren fuel order tables grantdeny dbR depth).map
      Children.linkHead
  else some []

/-- The privilege that the listing is filtered with. -/
def walkPriv (params : WalkParams) : Option Text :=
  if params.auth then some "read".toList else none

/-- `dav_repos_walk`, with the error that it returns. -/
def davReposWalk (fuel : Nat) (order : Sql.RowOrder MemberRow)
    (tables : RepoTables) (acl : AclTables) (principal : DavPrincipal)
    (params : WalkParams) (func : WalkFunc Context Response)
    (context : Context) (dbR : DavReposResource) (depth : Depth) :
    Option (Walked Context Response × Option DavError) :=
  (walkList fuel order tables (privFilter acl principal (walkPriv params)) dbR
    depth).map fun entries =>
      Visit.visit (walkStep params func)
        { context := context, response := none, calls := [] }
        ((dbR, none) :: entries)

end Walk

/-! ## What is below -/

/-- The binds that a listing of this depth has items for. -/
def Meets (tables : RepoTables) (grantdeny : Option (Bind → Option Char))
    (startId : Id) (depth : Depth) (bind : Bind) : Prop :=
  match depth with
  | .zero => False
  | .one => bind ∈ tables.binds.rows ∧ Kept grantdeny bind ∧
      bind.collectionId = startId
  | .infinity => Listed tables grantdeny startId bind

theorem meets_mem
    {tables : RepoTables} {grantdeny : Option (Bind → Option Char)}
    {startId : Id} {depth : Depth} {bind : Bind}
    (meets : Meets tables grantdeny startId depth bind) :
    bind ∈ tables.binds.rows := by
  cases depth with
  | zero => cases meets
  | one => exact meets.1
  | infinity => exact meets.bound

/-- The list below a collection: one item for each bind, in order. -/
structure IsListing (tables : ListedTables)
    (grantdeny : Option (Bind → Option Char)) (start : StartCollection)
    (depth : Depth) (entries : List Entry) : Prop where
  inOrder : InOrder tables grantdeny start entries
  complete : ∀ bind, Meets tables.toRepoTables grantdeny start.serialno depth
    bind → ∃ entry ∈ entries, entry.1.bindId = bind.id
  sound : ∀ entry ∈ entries, ∃ bind,
    Meets tables.toRepoTables grantdeny start.serialno depth bind ∧
      entry.1.bindId = bind.id ∧ entry.1.serialno = bind.resourceId

section Listing

variable {order : Sql.RowOrder MemberRow} {tables : ListedTables}
  {grantdeny : Option (Bind → Option Char)} {start : StartCollection}

theorem isListing_nil : IsListing tables grantdeny start .zero [] where
  inOrder :=
    { placed := by simp
      points := by simp
      once := List.nodup_nil }
  complete := nofun
  sound := nofun

/-- The members of a collection, each of them marked. -/
theorem isListing_level
    {entries : List Entry} {retrRs : List (Id × Pointer)}
    (marked : LastSeen.mark DavReposResource.serialno Pointer.item
      [(start.serialno, .start)] 0 (dbmsGetCollectionResource order 0
        tables.toRepoTables grantdeny [start.item]) = (entries, retrRs)) :
    IsListing tables grantdeny start .one entries := by
  have items : entries.map Prod.fst = dbmsGetCollectionResource order 0
      tables.toRepoTables grantdeny [start.item] := by
    have same : (LastSeen.mark DavReposResource.serialno Pointer.item
        [(start.serialno, .start)] 0 (dbmsGetCollectionResource order 0
          tables.toRepoTables grantdeny [start.item])).1.map Prod.fst = _ :=
      LastSeen.map_fst_mark
    rwa [marked] at same
  have next : (nextState order tables.toRepoTables grantdeny
      (listingStart order tables.toRepoTables grantdeny
        start.item)).linkHead = entries :=
    congrArg Prod.fst marked
  have mem_items : ∀ entry ∈ entries, entry.1 ∈ dbmsGetCollectionResource
      order 0 tables.toRepoTables grantdeny [start.item] := by
    intro entry member
    rw [← items]
    exact List.mem_map_of_mem member
  constructor
  case inOrder =>
    constructor
    case placed =>
      intro before entry after split
      exact (@placedInvariant_start order tables grantdeny
        start).next.entries before entry after (next.trans split)
    case points =>
      intro before entry after split
      exact points_of_marked marked split
    case once =>
      have once := @nodup_dbmsGetCollectionResource order 0 tables grantdeny
        [start.item]
      rw [← items, List.map_map] at once
      exact once
  case complete =>
    rintro bind ⟨bound, kept, inStart⟩
    have listed : start.item ∈ listedCollections [start.item] := by
      rw [listedCollections_start]
      exact List.mem_singleton_self _
    rcases (exists_item_iff bound listed inStart).mpr kept with
      ⟨item, member, same⟩
    rw [← items] at member
    rcases List.mem_map.mp member with ⟨entry, isEntry, rfl⟩
    exact ⟨entry, isEntry, same⟩
  case sound =>
    intro entry member
    rcases mem_dbmsGetCollectionResource.mp (mem_items entry member) with
      ⟨bind, bound, resource, -, inside, same, kept, isItem⟩
    rw [listedCollections_start, List.map_singleton, List.mem_singleton]
      at inside
    refine ⟨bind, ⟨bound, kept, inside⟩, ?_, ?_⟩
    · rw [isItem]
      rfl
    · rw [isItem]
      exact same

/-- With depth one the loop is left in its second round. -/
theorem listing_one
    {entries : List Entry} {retrRs : List (Id × Pointer)} {fuel : Nat}
    (marked : LastSeen.mark DavReposResource.serialno Pointer.item
      [(start.serialno, .start)] 0 (dbmsGetCollectionResource order 0
        tables.toRepoTables grantdeny [start.item]) = (entries, retrRs))
    (enough : 1 < fuel) :
    (sabridgeGetCollectionChildren fuel order tables.toRepoTables grantdeny
      start.item .one).map Children.linkHead = some entries := by
  rcases Nat.exists_eq_add_of_lt enough with ⟨more, rfl⟩
  have fuel : 1 + more + 1 = more + 2 := by omega
  rw [fuel]
  unfold sabridgeGetCollectionChildren
  simp only
  rw [Loop.run]
  by_cases empty : dbmsGetCollectionResource order 0 tables.toRepoTables
      grantdeny [start.item] = []
  · have leaves : listLevel order tables.toRepoTables grantdeny .one
        (listingStart order tables.toRepoTables grantdeny start.item) =
          .inl ⟨[], some _⟩ :=
      if_pos empty
    rw [empty] at marked
    rw [leaves, ← (Prod.mk.inj marked).1]
    rfl
  · have continues : listLevel order tables.toRepoTables grantdeny .one
        (listingStart order tables.toRepoTables grantdeny start.item) =
          .inr
            { queries := 1
              linkHead := entries
              nextLevelChildren := []
              retrRs := retrRs
              totalItems := dbmsNumItems order 0 tables.toRepoTables
                [start.item] } := by
      have first : [] ++ (LastSeen.mark DavReposResource.serialno Pointer.item
          [(start.serialno, .start)] 0 (dbmsGetCollectionResource order 0
            tables.toRepoTables grantdeny [start.item])).1 = entries :=
        congrArg Prod.fst marked
      have second := congrArg Prod.snd marked
      rw [← first, ← show _ = retrRs from second]
      exact if_neg empty
    rw [continues]
    rfl

/-- The listing of a collection ends, and lists what is below it. -/
theorem exists_isListing
    (order : Sql.RowOrder MemberRow) (tables : ListedTables)
    (grantdeny : Option (Bind → Option Char)) (start : StartCollection)
    (depth : Depth) :
    ∃ entries,
      (∀ fuel, 2 * tables.resources.length + 1 < fuel →
        walkList fuel order tables.toRepoTables grantdeny start.item depth =
          some entries) ∧
      IsListing tables grantdeny start depth entries := by
  have isColl : start.item.resourcetype.isCollection = true :=
    start.isCollection
  cases depth with
  | zero => exact ⟨[], fun _ _ => if_neg (by simp), isListing_nil⟩
  | one =>
      cases marked : LastSeen.mark DavReposResource.serialno Pointer.item
          [(start.serialno, Pointer.start)] 0 (dbmsGetCollectionResource order
            0 tables.toRepoTables grantdeny [start.item]) with
      | mk entries retrRs =>
          refine ⟨entries, ?_, isListing_level marked⟩
          intro fuel enough
          have chosen : start.item.resourcetype.isCollection = true ∧
              Depth.one ≠ .zero :=
            ⟨isColl, by simp⟩
          rw [walkList, if_pos chosen]
          exact listing_one marked (by omega)
  | infinity =>
      rcases exists_inOrder order tables grantdeny start with
        ⟨children, stopped, lists, inOrder⟩
      refine ⟨children.linkHead, ?_, inOrder, lists.binds.complete, ?_⟩
      · intro fuel enough
        have chosen : start.item.resourcetype.isCollection = true ∧
            Depth.infinity ≠ .zero :=
          ⟨isColl, by simp⟩
        rw [walkList, if_pos chosen, stopped fuel enough, Option.map_some]
      · intro entry member
        rcases lists.binds.sound entry member with
          ⟨bind, listed, same, serialno, -⟩
        exact ⟨bind, listed, same, serialno⟩

end Listing

/-! ## The calls -/

section Calls

variable {Context Response : Type} {params : WalkParams}
  {func : WalkFunc Context Response} {entries done : List Entry}

/-- The items that the function is called for. -/
def selected (params : WalkParams) (entries : List Entry) : List Entry :=
  entries.filter fun entry => !params.skips entry

/-- What has been called when these items have been gone through. -/
def callsOf (params : WalkParams) (entries : List Entry) : List Call :=
  (selected params entries).map fun entry => callOf entry.1

theorem callsOf_append (first second : List Entry) :
    callsOf params (first ++ second) =
      callsOf params first ++ callsOf params second := by
  simp [callsOf, selected]

/-- A step makes the call of its item, unless the item is left out. -/
theorem calls_walkStep
    (state : Walked Context Response) (entry : Entry) :
    (walkStep params func state entry).1.calls =
      state.calls ++ callsOf params [entry] := by
  by_cases skipped : params.skips entry = true
  · simp [walkStep, callsOf, selected, skipped]
  · simp [walkStep, callsOf, selected, skipped]

/-- An error is that of the call that has just been made. -/
theorem error_walkStep
    {state next : Walked Context Response} {entry : Entry} {err : DavError}
    (fails : walkStep params func state entry = (next, some err)) :
    ∃ context response call, next.calls.getLast? = some call ∧
      (func context response call).2.2 = some err := by
  unfold walkStep at fails
  split at fails
  next => cases (Prod.mk.inj fails).2
  next =>
      rcases Prod.mk.inj fails with ⟨rfl, isErr⟩
      exact ⟨_, _, _, List.getLast?_concat, isErr⟩

/-- Without an error all calls are made, and an error is that of the last. -/
theorem visit_calls
    (state : Walked Context Response)
    (none : state.calls = [])
    {walked : Walked Context Response} {err : Option DavError}
    (ran : Visit.visit (walkStep params func) state entries = (walked, err)) :
    ∃ done rest, entries = done ++ rest ∧
      walked.calls = callsOf params done ∧ (err = Option.none → rest = []) ∧
      ∀ e, err = some e → ∃ context response call,
        walked.calls.getLast? = some call ∧
          (func context response call).2.2 = some e := by
  have continues : ∀ (before : List Entry) (state : Walked Context Response)
      (entry : Entry) (next : Walked Context Response),
      state.calls = callsOf params before →
      walkStep params func state entry = (next, Option.none) →
        next.calls = callsOf params (before ++ [entry]) := by
    intro before state entry next same stepped
    have calls := @calls_walkStep _ _ params func state entry
    rw [stepped, same] at calls
    rw [calls, callsOf_append]
  rcases Visit.visit_induct [] entries continues none with
    ⟨last, ends, holds⟩ | ⟨before, entry, rest, middle, last, error, rfl, ends,
      holds, fails⟩
  · rcases Prod.mk.inj (ran.symm.trans ends) with ⟨rfl, rfl⟩
    exact ⟨entries, [], (List.append_nil _).symm, holds, fun _ => rfl, nofun⟩
  · rcases Prod.mk.inj (ran.symm.trans ends) with ⟨rfl, rfl⟩
    have calls := @calls_walkStep _ _ params func middle entry
    rw [fails, holds, List.nil_append, ← callsOf_append] at calls
    refine ⟨before ++ [entry], rest, by simp, calls, nofun, ?_⟩
    intro e same
    rcases Option.some.inj same with rfl
    exact error_walkStep fails

end Calls

/-! ## Walks that ignore binds -/

/-- What a walk of this depth has to meet. -/
def Covers (tables : RepoTables) (grantdeny : Option (Bind → Option Char))
    (startId : Id) (depth : Depth) (id : Id) : Prop :=
  id = startId ∨ ∃ bind, Meets tables grantdeny startId depth bind ∧
    bind.resourceId = id

/-- The resource of a call is bound in that of an earlier one. -/
def IsBelow (tables : RepoTables) (before : List Call) (call : Call) : Prop :=
  ∃ parent ∈ before, ∃ bind ∈ tables.binds.rows, ∃ uri,
    parent.resource.serialno = bind.collectionId ∧
      parent.resource.uri = some uri ∧
      call.resource.serialno = bind.resourceId ∧
      call.resource.uri = some (childUri uri bind.name)

/-- Calls for each resource once, and for a member after its collection. -/
structure VisitsOnce (tables : RepoTables)
    (grantdeny : Option (Bind → Option Char)) (start : StartCollection)
    (depth : Depth) (calls : List Call) : Prop where
  root : calls.head? = some (callOf start.item)
  once : (calls.map fun call => call.resource.serialno).Nodup
  covered : ∀ call ∈ calls, Covers tables grantdeny start.serialno depth
    call.resource.serialno
  below : ∀ before call after, calls = before ++ call :: after →
    before ≠ [] → IsBelow tables before call

section Once

variable {params : WalkParams} {tables : ListedTables}
  {grantdeny : Option (Bind → Option Char)} {start : StartCollection}
  {depth : Depth} {entries done : List Entry}

/-- Keys that differ from all before them are there once. -/
theorem nodup_of_new
    {α β : Type*} {key : α → β} {items : List α}
    (isNew : ∀ before item after, items = before ++ item :: after →
      ∀ other ∈ before, key other ≠ key item) :
    (items.map key).Nodup := by
  induction items using List.reverseRecOn with
  | nil => exact List.nodup_nil
  | append_singleton items item induction =>
      rw [List.map_append, List.nodup_append]
      refine ⟨?_, by simp, ?_⟩
      · apply induction
        intro before other after split
        apply isNew before other (after ++ [item])
        simp [split]
      · intro first isFirst second isSecond
        rcases List.mem_map.mp isFirst with ⟨other, member, rfl⟩
        rcases List.mem_singleton.mp isSecond with rfl
        exact isNew items item [] rfl other member

/-- The first item is the resource itself, which is not left out. -/
theorem callsOf_cons_start :
    callsOf params ((start.item, none) :: done) =
      callOf start.item :: callsOf params done := by
  have kept : params.skips (start.item, none) = false := by
    simp [WalkParams.skips]
  simp [callsOf, selected, kept]

/-- An item that a walk calls for, and what has been called before it. -/
theorem exists_of_callsOf
    {before after : List Call} {call : Call}
    (split : callsOf params done = before ++ call :: after) :
    ∃ earlier entry later, done = earlier ++ entry :: later ∧
      before = callsOf params earlier ∧ call = callOf entry.1 ∧
      params.skips entry = false := by
  rcases List.map_eq_append_iff.mp split with
    ⟨first, second, both, rfl, isSecond⟩
  rcases List.map_eq_cons_iff.mp isSecond with
    ⟨entry, others, rfl, rfl, -⟩
  rcases List.filter_eq_append_iff.mp both with
    ⟨earlier, rest, rfl, rfl, isRest⟩
  rcases List.filter_eq_cons_iff.mp isRest with
    ⟨left, right, rfl, noneLeft, kept, -⟩
  have isEmpty : selected params left = [] :=
    List.filter_eq_nil_iff.mpr noneLeft
  have noCalls : callsOf params left = [] :=
    List.map_eq_nil_iff.mpr isEmpty
  refine ⟨earlier ++ left, entry, right, by simp, ?_, rfl, by simpa using kept⟩
  rw [callsOf_append, noCalls, List.append_nil]
  rfl

theorem mem_callsOf
    {entry : Entry} (member : entry ∈ done)
    (kept : params.skips entry = false) :
    callOf entry.1 ∈ callsOf params done :=
  List.mem_map_of_mem (List.mem_filter.mpr ⟨member, by simp [kept]⟩)

/-- The calls for the items up to some place. -/
theorem visitsOnce_of_listing
    (ignores : params.ignoreBinds = true)
    (listing : IsListing tables grantdeny start depth (done ++ entries)) :
    VisitsOnce tables.toRepoTables grantdeny start depth
      (callsOf params ((start.item, none) :: done)) := by
  have unmarked : ∀ entry : Entry, params.skips entry = false →
      entry.2 = none := by
    intro entry kept
    simpa [WalkParams.skips, ignores] using kept
  have points : ∀ before entry after, done = before ++ entry :: after →
      Points start before entry := by
    intro before entry after split
    apply listing.inOrder.points before entry (after ++ entries)
    simp [split]
  have placed : ∀ before entry after, done = before ++ entry :: after →
      Placed tables grantdeny start before entry.1 := by
    intro before entry after split
    apply listing.inOrder.placed before entry (after ++ entries)
    simp [split]
  have isNew : ∀ before entry after, done = before ++ entry :: after →
      entry.2 = none → entry.1.serialno ≠ start.serialno ∧
        ∀ other ∈ before, other.1.serialno ≠ entry.1.serialno := by
    intro before entry after split none
    have pointed := points before entry after split
    unfold Points at pointed
    rw [none] at pointed
    exact pointed
  rw [callsOf_cons_start]
  constructor
  case root => rfl
  case once =>
    rw [List.map_cons, List.nodup_cons]
    constructor
    · intro member
      rcases List.mem_map.mp member with ⟨call, isCall, same⟩
      rcases List.append_of_mem isCall with ⟨before, after, split⟩
      rcases exists_of_callsOf split with
        ⟨earlier, entry, later, isDone, -, rfl, kept⟩
      exact (isNew earlier entry later isDone (unmarked entry kept)).1 same
    · apply nodup_of_new
      intro before call after split other isOther
      rcases exists_of_callsOf split with
        ⟨earlier, entry, later, isDone, rfl, rfl, kept⟩
      rcases List.mem_map.mp isOther with ⟨first, isFirst, rfl⟩
      exact (isNew earlier entry later isDone (unmarked entry kept)).2 first
        (List.mem_filter.mp isFirst).1
  case covered =>
    intro call isCall
    rcases List.mem_cons.mp isCall with rfl | member
    · exact Or.inl rfl
    · rcases List.mem_map.mp member with ⟨entry, isEntry, rfl⟩
      rcases listing.sound entry
        (List.mem_append_left _ (List.mem_filter.mp isEntry).1) with
        ⟨bind, meets, -, serialno⟩
      exact Or.inr ⟨bind, meets, serialno.symm⟩
  case below =>
    intro before call after split nonempty
    cases before with
    | nil => exact absurd rfl nonempty
    | cons first before =>
        rcases List.cons.inj split with ⟨rfl, isRest⟩
        rcases exists_of_callsOf isRest with
          ⟨earlier, entry, later, isDone, rfl, rfl, kept⟩
        rcases placed earlier entry later isDone with
          ⟨bind, parentUri, isPlaced⟩
        have found : ∃ parent ∈ callOf start.item :: callsOf params earlier,
            parent.resource.serialno = bind.collectionId ∧
              parent.resource.uri = some parentUri := by
          rcases isPlaced.met with ⟨isStart, isUri⟩ |
            ⟨parent, member, isColl, hasUri⟩
          · refine ⟨callOf start.item, List.mem_cons_self, isStart.symm, ?_⟩
            rw [isUri]
            rfl
          · refine ⟨callOf parent, List.mem_cons_of_mem _ ?_, isColl, hasUri⟩
            exact mem_callsOf member (by simp [WalkParams.skips])
        rcases found with ⟨parent, isParent, isColl, hasUri⟩
        exact ⟨parent, isParent, bind, isPlaced.bound, parentUri, isColl,
          hasUri, isPlaced.serialno, isPlaced.uri⟩

/-- The first item of a resource has no pointer. -/
theorem exists_unmarked
    (listing : IsListing tables grantdeny start depth entries)
    {id : Id} (other : id ≠ start.serialno)
    (listed : ∃ entry ∈ entries, entry.1.serialno = id) :
    ∃ entry ∈ entries, entry.1.serialno = id ∧ entry.2 = none := by
  have isSome : (entries.find? fun entry => entry.1.serialno == id).isSome := by
    rw [List.find?_isSome]
    rcases listed with ⟨entry, member, same⟩
    exact ⟨entry, member, beq_iff_eq.mpr same⟩
  rcases Option.isSome_iff_exists.mp isSome with ⟨first, found⟩
  rcases List.find?_eq_some_iff_append.mp found with
    ⟨same, before, after, split, unlike⟩
  have isId : first.1.serialno = id := beq_iff_eq.mp same
  refine ⟨first, List.mem_of_find?_eq_some found, isId, ?_⟩
  have points := listing.inOrder.points before first after split
  unfold Points at points
  cases isPointer : first.2 with
  | none => rfl
  | some pointer =>
      rw [isPointer] at points
      cases pointer with
      | start => exact absurd (isId.symm.trans points) other
      | item index =>
          rcases points with ⟨earlier, isEarlier, sameId⟩
          have differs := unlike earlier (List.mem_of_getElem? isEarlier)
          rw [sameId, same] at differs
          cases differs

/-- What is covered has an item that is not left out. -/
theorem exists_call
    (listing : IsListing tables grantdeny start depth entries)
    {id : Id}
    (covers : Covers tables.toRepoTables grantdeny start.serialno depth id) :
    ∃ call ∈ callsOf params ((start.item, none) :: entries),
      call.resource.serialno = id := by
  rw [callsOf_cons_start]
  by_cases isStart : id = start.serialno
  · exact ⟨callOf start.item, List.mem_cons_self, isStart.symm⟩
  · rcases covers with same | ⟨bind, meets, isId⟩
    · exact absurd same isStart
    · have listed : ∃ entry ∈ entries, entry.1.serialno = id := by
        rcases listing.complete bind meets with ⟨entry, member, same⟩
        rcases listing.sound entry member with
          ⟨other, otherMeets, otherSame, serialno⟩
        have equal : other = bind :=
          List.inj_on_of_nodup_map tables.binds.pkey (meets_mem otherMeets)
            (meets_mem meets) (otherSame.symm.trans same)
        exact ⟨entry, member, serialno.trans (equal ▸ isId)⟩
      rcases exists_unmarked listing isStart listed with
        ⟨entry, member, same, none⟩
      refine ⟨callOf entry.1, List.mem_cons_of_mem _ ?_, same⟩
      exact mem_callsOf member (by simp [WalkParams.skips, none])

end Once

/-! ## The function -/

section Function

variable {Context Response : Type}

/-- An error is that of the function at the last call. -/
def IsLastError (func : WalkFunc Context Response)
    (walked : Walked Context Response) (err : DavError) : Prop :=
  ∃ context response call, walked.calls.getLast? = some call ∧
    (func context response call).2.2 = some err

/-- The first call is always made. -/
theorem exists_cons_of_visit
    {func : WalkFunc Context Response} {params : WalkParams}
    {walked : Walked Context Response} {err : Option DavError} {first : Entry}
    {entries done rest : List Entry}
    (split : first :: entries = done ++ rest)
    (calls : walked.calls = callsOf params done)
    (complete : err = none → rest = [])
    (isLast : ∀ e, err = some e → IsLastError func walked e) :
    ∃ later, done = first :: later ∧ entries = later ++ rest := by
  cases done with
  | cons head later =>
      rcases List.cons.inj split with ⟨rfl, same⟩
      exact ⟨later, rfl, same⟩
  | nil =>
      cases err with
      | none =>
          rw [complete rfl] at split
          cases split
      | some e =>
          rcases isLast e rfl with ⟨_, _, call, isCall, -⟩
          rw [calls] at isCall
          cases isCall

/--
A walk that ignores binds calls the function once for each resource it has to
meet, or up to the call that returns an error.
-/
theorem davReposWalk_visitsOnce
    (order : Sql.RowOrder MemberRow) (tables : ListedTables) (acl : AclTables)
    (principal : DavPrincipal) (params : WalkParams)
    (func : WalkFunc Context Response) (context : Context)
    (start : StartCollection) (depth : Depth)
    (ignores : params.ignoreBinds = true) :
    ∃ walked err,
      (∀ fuel, 2 * tables.resources.length + 1 < fuel →
        davReposWalk fuel order tables.toRepoTables acl principal params func
          context start.item depth = some (walked, err)) ∧
      VisitsOnce tables.toRepoTables
        (privFilter acl principal (walkPriv params)) start depth
        walked.calls ∧
      (err = none → ∀ id, Covers tables.toRepoTables
        (privFilter acl principal (walkPriv params)) start.serialno depth id →
          ∃ call ∈ walked.calls, call.resource.serialno = id) ∧
      ∀ e, err = some e → IsLastError func walked e := by
  rcases exists_isListing order tables
    (privFilter acl principal (walkPriv params)) start depth with
    ⟨entries, stopped, listing⟩
  cases ran : Visit.visit (walkStep params func)
      { context := context, response := none, calls := [] }
      ((start.item, none) :: entries) with
  | mk walked err =>
      rcases visit_calls _ rfl ran with
        ⟨done, rest, split, calls, complete, isLast⟩
      refine ⟨walked, err, ?_, ?_, ?_, isLast⟩
      · intro fuel enough
        rw [davReposWalk, stopped fuel enough, Option.map_some, ran]
      · rcases exists_cons_of_visit split calls complete isLast with
          ⟨later, rfl, rfl⟩
        rw [calls]
        exact visitsOnce_of_listing ignores listing
      · intro none id covers
        rcases complete none with rfl
        rw [calls, ← List.append_nil done, ← split]
        exact exists_call listing covers

/-- Calls for the resource, and then one for each bind. -/
structure VisitsBinds (tables : RepoTables)
    (grantdeny : Option (Bind → Option Char)) (start : StartCollection)
    (depth : Depth) (calls : List Call) : Prop where
  root : calls.head? = some (callOf start.item)
  once : (calls.tail.map fun call => call.resource.bindId).Nodup
  covered : ∀ call ∈ calls.tail, ∃ bind,
    Meets tables grantdeny start.serialno depth bind ∧
      call.resource.bindId = bind.id ∧
      call.resource.serialno = bind.resourceId

/-- Any other walk calls the function once for each bind. -/
theorem davReposWalk_visitsBinds
    (order : Sql.RowOrder MemberRow) (tables : ListedTables) (acl : AclTables)
    (principal : DavPrincipal) (params : WalkParams)
    (func : WalkFunc Context Response) (context : Context)
    (start : StartCollection) (depth : Depth)
    (keeps : params.ignoreBinds = false) :
    ∃ walked err,
      (∀ fuel, 2 * tables.resources.length + 1 < fuel →
        davReposWalk fuel order tables.toRepoTables acl principal params func
          context start.item depth = some (walked, err)) ∧
      VisitsBinds tables.toRepoTables
        (privFilter acl principal (walkPriv params)) start depth
        walked.calls ∧
      (err = none → ∀ bind, Meets tables.toRepoTables
        (privFilter acl principal (walkPriv params)) start.serialno depth
          bind →
          ∃ call ∈ walked.calls.tail, call.resource.bindId = bind.id) ∧
      ∀ e, err = some e → IsLastError func walked e := by
  have all : ∀ items, callsOf params items =
      items.map fun entry => callOf entry.1 := by
    intro items
    have selects : selected params items = items := by
      simp [selected, WalkParams.skips, keeps]
    rw [callsOf, selects]
  rcases exists_isListing order tables
    (privFilter acl principal (walkPriv params)) start depth with
    ⟨entries, stopped, listing⟩
  cases ran : Visit.visit (walkStep params func)
      { context := context, response := none, calls := [] }
      ((start.item, none) :: entries) with
  | mk walked err =>
      rcases visit_calls _ rfl ran with
        ⟨done, rest, split, calls, complete, isLast⟩
      rcases exists_cons_of_visit split calls complete isLast with
        ⟨later, rfl, rfl⟩
      rw [all, List.map_cons] at calls
      refine ⟨walked, err, ?_, ?_, ?_, isLast⟩
      · intro fuel enough
        rw [davReposWalk, stopped fuel enough, Option.map_some, ran]
      · rw [calls]
        constructor
        case root => rfl
        case once =>
          have once := listing.inOrder.once
          rw [List.map_append] at once
          rw [List.tail_cons, List.map_map]
          exact once.of_append_left
        case covered =>
          intro call member
          rcases List.mem_map.mp member with ⟨entry, isEntry, rfl⟩
          exact listing.sound entry (List.mem_append_left _ isEntry)
      · intro none bind meets
        rcases complete none with rfl
        rw [List.append_nil] at listing
        rcases listing.complete bind meets with ⟨entry, member, same⟩
        rw [calls]
        exact ⟨callOf entry.1, List.mem_map_of_mem member, same⟩

end Function

/-! ## A collection that is a member of its member -/

/-- A function that counts its calls. -/
def countCalls : WalkFunc Nat Text :=
  fun context response _ => (context + 1, response, none)

theorem visitsOnce_twoWaysBack :
    ∃ walked err,
      davReposWalk 6 (Sql.RowOrder.stored _) twoWaysBack.toRepoTables noEntries
        .unauthenticated ⟨false, true, true⟩ countCalls 0 rootStart.item
        .infinity = some (walked, err) ∧
      VisitsOnce twoWaysBack.toRepoTables none rootStart .infinity
        walked.calls := by
  rcases davReposWalk_visitsOnce (Sql.RowOrder.stored _) twoWaysBack noEntries
    .unauthenticated ⟨false, true, true⟩ countCalls 0 rootStart .infinity rfl
    with ⟨walked, err, stopped, visits, -⟩
  exact ⟨walked, err, stopped 6 (by decide), visits⟩

theorem visitsBinds_twoWaysBack :
    ∃ walked err,
      davReposWalk 6 (Sql.RowOrder.stored _) twoWaysBack.toRepoTables noEntries
        .unauthenticated ⟨false, false, true⟩ countCalls 0 rootStart.item
        .infinity = some (walked, err) ∧
      VisitsBinds twoWaysBack.toRepoTables none rootStart .infinity
        walked.calls := by
  rcases davReposWalk_visitsBinds (Sql.RowOrder.stored _) twoWaysBack noEntries
    .unauthenticated ⟨false, false, true⟩ countCalls 0 rootStart .infinity rfl
    with ⟨walked, err, stopped, visits, -⟩
  exact ⟨walked, err, stopped 6 (by decide), visits⟩

end Limestone.WalkResources
