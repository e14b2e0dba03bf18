import Limestone.Rebind
import Limestone.UnbindHistories

/-!
# The steps of a move

What the functions that a move is made of leave of the tables and of a record,
each without an error: a record has the row of its resource, or it is without
one; a bind is given another place; and a resource that has been overwritten is
spared or deleted.
-/

namespace Limestone.Rebind

open Library
open BridgeProperty hiding sabridgeGetProperty
open CopyMedium (notified updatedMedia)
open DbmsBind
open DbmsLookup
open GetResource (LeadsTo RowColumns recordColumns keepsRow_getPropertyOf
  getLookedUp_of_leadsTo)

/-! ## What has been read -/

/-- The columns of a row as they are read into a record. -/
def rowColumns (row : ResourceRow) : RowColumns where
  id := row.id
  resourcetype := some row.type
  createdAt := some row.createdAt
  displayname := columnText row.displayname
  getcontentlanguage := some row.contentlanguage
  ownerId := row.ownerId
  comment := columnText row.comment
  creatorId := row.creatorId
  uuid := some (row.uuid.take 32)
  limebarState := columnText row.limebarState

theorem returned_eq_ok
    {α : Type} {err : Option DavError} {value result : α} :
    returned err value = .ok result ↔ err = none ∧ value = result := by
  cases err with
  | none => simp [returned]
  | some err => simp [returned]

section Reading

variable {tables : PropertyTables} {rootPath rest : Text} {id : Id}
  {r record : DavReposResource}

theorem recordColumns_dbmsGetResource
    {row : ResourceRow}
    (unique : (tables.resources.map ResourceRow.id).Nodup)
    (listed : row ∈ tables.resources)
    (same : r.serialno = row.id) :
    recordColumns (dbmsGetResource false tables r).1 = rowColumns row := by
  unfold dbmsGetResource
  rw [if_neg Bool.false_ne_true, same, Sql.find_key unique listed]
  rfl

theorem uri_dbmsGetResource :
    (dbmsGetResource false tables r).1.rootPath = r.rootPath ∧
      (dbmsGetResource false tables r).1.uri = r.uri := by
  unfold dbmsGetResource
  rw [if_neg Bool.false_ne_true]
  split
  · exact ⟨rfl, rfl⟩
  · exact ⟨rfl, rfl⟩

/-- What the record of a resource has of it, and the URI it was read by. -/
structure IsRead (row : ResourceRow) (r record : DavReposResource) : Prop where
  columns : recordColumns record = rowColumns row
  rootPath : record.rootPath = r.rootPath
  uri : record.uri = r.uri

theorem IsRead.serialno
    {row : ResourceRow} (isRead : IsRead row r record) :
    record.serialno = row.id :=
  congrArg RowColumns.id isRead.columns

theorem IsRead.resourcetype
    {row : ResourceRow} (isRead : IsRead row r record) :
    record.resourcetype = some row.type :=
  congrArg RowColumns.resourcetype isRead.columns

theorem isRead_of_getPropertyOf
    {row : ResourceRow} {bind : Option DbmsBindList} {err : Option DavError}
    (unique : (tables.resources.map ResourceRow.id).Nodup)
    (listed : row ∈ tables.resources)
    (same : r.serialno = row.id)
    (read : getPropertyOf false tables r bind false = .returned record err) :
    IsRead row r record := by
  have keeps := keepsRow_getPropertyOf read
  have uri := @uri_dbmsGetResource tables r
  exact
    { columns := keeps.columns.trans
        (recordColumns_dbmsGetResource unique listed same)
      rootPath := keeps.rootPath.trans uri.1
      uri := keeps.uri.trans uri.2 }

/-- What is returned without an error. -/
theorem sabridgeGetProperty_eq_ok :
    sabridgeGetProperty tables r = .ok record ↔
      BridgeProperty.sabridgeGetProperty false tables r =
        .returned record none := by
  unfold sabridgeGetProperty
  cases BridgeProperty.sabridgeGetProperty false tables r with
  | undefined => exact iff_of_false nofun nofun
  | returned result err =>
      simp only [returned_eq_ok, Outcome.returned.injEq]
      exact and_comm

theorem getPropertyOf_of_serialno
    (known : r.serialno ≠ 0)
    (read : sabridgeGetProperty tables r = .ok record) :
    getPropertyOf false tables r none false = .returned record none := by
  have result := sabridgeGetProperty_eq_ok.mp read
  rwa [BridgeProperty.sabridgeGetProperty, if_pos known] at result

/-- A record with an id is read by it, and the id is left as it is. -/
theorem serialno_of_read
    (known : r.serialno ≠ 0)
    (read : sabridgeGetProperty tables r = .ok record) :
    record.serialno = r.serialno := by
  have keeps := keepsRow_getPropertyOf (getPropertyOf_of_serialno known read)
  rw [keeps.sameResource.serialno]
  unfold dbmsGetResource
  rw [if_neg Bool.false_ne_true]
  split
  · rfl
  · rfl

theorem isRead_of_serialno
    {row : ResourceRow}
    (unique : (tables.resources.map ResourceRow.id).Nodup)
    (listed : row ∈ tables.resources)
    (same : r.serialno = row.id)
    (known : r.serialno ≠ 0)
    (read : sabridgeGetProperty tables r = .ok record) :
    IsRead row r record :=
  isRead_of_getPropertyOf unique listed same
    (getPropertyOf_of_serialno known read)

/-- A record without an id, that is to be read by its URI. -/
structure IsUnread (rootPath rest : Text) (r : DavReposResource) :
    Prop where
  unknown : r.serialno = 0
  isRoot : r.rootPath = some rootPath
  isUri : r.uri = some (rootPath ++ rest)

theorem isUnread_newResource (rootPath rest : Text) :
    IsUnread rootPath rest (newResource rootPath (rootPath ++ rest)) :=
  ⟨rfl, rfl, rfl⟩

theorem getLookedUp_of_isUnread
    (unread : IsUnread rootPath rest r)
    (read : sabridgeGetProperty tables r = .ok record) :
    getLookedUp false tables r
      (dbmsLookupUri false tables.binds.rows (lastmodified tables) rest) =
        .returned record none := by
  have result := sabridgeGetProperty_eq_ok.mp read
  rwa [RedirectTarget.sabridgeGetProperty_of_uri unread.unknown
    unread.isRoot unread.isUri] at result

/-- A URI that leads to a resource. -/
theorem isRead_of_leadsTo
    {row : ResourceRow}
    (unique : (tables.resources.map ResourceRow.id).Nodup)
    (listed : row ∈ tables.resources)
    (leads : LeadsTo tables.binds.rows rest row.id)
    (unread : IsUnread rootPath rest r)
    (read : sabridgeGetProperty tables r = .ok record) :
    IsRead row r record := by
  rcases getLookedUp_of_leadsTo r leads with ⟨bind, looked⟩
  have isRead := isRead_of_getPropertyOf unique listed rfl
    (looked.symm.trans (getLookedUp_of_isUnread unread read))
  exact ⟨isRead.columns, isRead.rootPath, isRead.uri⟩

/-- The query of a URI with a question mark is not executed. -/
theorem notMem_question
    (nonempty : Segments.tokens '/' rest ≠ [])
    (unread : IsUnread rootPath rest r)
    (read : sabridgeGetProperty tables r = .ok record) :
    '?' ∉ rest := by
  intro question
  have looked := getLookedUp_of_isUnread unread read
  rw [UriLookup.dbmsLookupUri_eq _ _ _ nonempty, if_pos question] at looked
  cases looked

/-- The resource is one of the tables, and it is no redirect reference. -/
def IsPlain (tables : PropertyTables) (id : Id) : Prop :=
  ∃ row ∈ tables.resources, row.id = id ∧ row.type ≠ .redirect

/-- A URI that does not resolve is read without a resource. -/
theorem isUnread_of_inPart
    (unique : (tables.resources.map ResourceRow.id).Nodup)
    (inPart : (UriLookup.walkBinds tables.binds.rows rootCollectionId
      (Segments.tokens '/' rest)).length < (Segments.tokens '/' rest).length)
    (plain : ∀ last, (UriLookup.walkBinds tables.binds.rows rootCollectionId
        (Segments.tokens '/' rest)).getLast? = some last →
      IsPlain tables last.resourceId)
    (unread : IsUnread rootPath rest r)
    (read : sabridgeGetProperty tables r = .ok record) :
    IsUnread rootPath rest record := by
  have nonempty : Segments.tokens '/' rest ≠ [] := by
    intro empty
    rw [empty] at inPart
    exact Nat.not_lt_zero _ inPart
  have looked := getLookedUp_of_isUnread unread read
  rw [UriLookup.dbmsLookupUri_eq _ _ _ nonempty,
    if_neg (notMem_question nonempty unread read),
    if_neg Bool.false_ne_true] at looked
  cases ends : (UriLookup.walkBinds tables.binds.rows rootCollectionId
      (Segments.tokens '/' rest)).getLast? with
  | none =>
      rw [if_pos (List.getLast?_eq_none_iff.mp ends)] at looked
      rcases (Outcome.returned.inj looked).1 with rfl
      exact unread
  | some last =>
      have resolved : UriLookup.walkBinds tables.binds.rows rootCollectionId
          (Segments.tokens '/' rest) ≠ [] := by
        intro empty
        rw [empty] at ends
        cases ends
      have missing : (Segments.tokens '/' rest).length -
          (UriLookup.walkBinds tables.binds.rows rootCollectionId
            (Segments.tokens '/' rest)).length ≠ 0 := by omega
      have row := UriLookup.readRow_inPart (lastmodified tables)
        (compactUri rest) missing ends
      rcases plain last ends with ⟨resource, listed, same, noRedirect⟩
      have positive := (tables.binds.positive last
        (UriLookup.mem_of_mem_walkBinds (List.mem_of_getLast? ends))).2
      have type : (dbmsGetResource false tables
          { r with serialno := last.resourceId }).1.resourcetype ≠
            some .redirect := by
        have columns := congrArg RowColumns.resourcetype
          (@recordColumns_dbmsGetResource tables
            { r with serialno := last.resourceId } resource unique listed
            same.symm)
        intro redirect
        exact noRedirect (Option.some.inj (columns.symm.trans redirect))
      have uri := @uri_dbmsGetResource tables
        { r with serialno := last.resourceId }
      rw [if_neg resolved] at looked
      unfold getLookedUp UriLookup.chainRow at looked
      simp only [row.1, row.2.1, if_true, beq_self_eq_true,
        if_neg (Int.ne_of_gt positive)] at looked
      unfold getPropertyOf at looked
      simp only [true_and, if_pos type] at looked
      rcases (Outcome.returned.inj looked).1 with rfl
      exact ⟨rfl, uri.1.trans unread.isRoot, uri.2.trans unread.isUri⟩

end Reading

/-! ## Statements -/

section Statements

variable {request : Request} {store after : RebindStore} {fuel : Nat}
  {srcParentId dstParentId : Id} {srcBindName dstBindName name now : Text}
  {rows : List Bind} {bind : Bind}

/-- The resources, the binds and the bodies are the same. -/
structure SameRows (store after : RebindStore) : Prop where
  binds : after.binds.rows = store.binds.rows
  resources : after.resources = store.resources
  media : after.media = store.media

theorem SameRows.ids
    (same : SameRows store after) : after.ids = store.ids :=
  congrArg (List.map ResourceRow.id) same.resources

theorem key_rebound_of_source
    (isSource : bind.key = (srcParentId, srcBindName)) :
    (rebound srcParentId srcBindName dstParentId name now bind).key =
      (dstParentId, name) := by
  unfold rebound
  rw [if_pos isSource]
  rfl

theorem rebound_of_other
    (other : bind.key ≠ (srcParentId, srcBindName)) :
    rebound srcParentId srcBindName dstParentId name now bind = bind :=
  if_neg other

/-- The binds with other keys are left as they are. -/
theorem mem_map_rebound
    (notSource : bind.key ≠ (srcParentId, srcBindName))
    (notTarget : bind.key ≠ (dstParentId, name)) :
    bind ∈ rows.map (rebound srcParentId srcBindName dstParentId name now) ↔
      bind ∈ rows := by
  constructor
  · intro member
    rcases List.mem_map.mp member with ⟨old, listed, rfl⟩
    by_cases isSource : old.key = (srcParentId, srcBindName)
    · exact absurd (key_rebound_of_source isSource) notTarget
    · rwa [rebound_of_other isSource]
  · intro listed
    exact List.mem_map.mpr ⟨bind, listed, rebound_of_other notSource⟩

/-- No bind is left at the place that a bind has been moved from. -/
theorem key_ne_source
    (moves : (srcParentId, srcBindName) ≠ (dstParentId, name))
    (member : bind ∈
      rows.map (rebound srcParentId srcBindName dstParentId name now)) :
    bind.key ≠ (srcParentId, srcBindName) := by
  intro isSource
  rcases List.mem_map.mp member with ⟨old, -, rfl⟩
  by_cases wasSource : old.key = (srcParentId, srcBindName)
  · exact moves (isSource.symm.trans (key_rebound_of_source wasSource))
  · rw [rebound_of_other wasSource] at isSource
    exact wasSource isSource

/-- What `dbms_rebind_resource` does when it returns no error. -/
theorem dbmsRebindResource_ok
    (done : dbmsRebindResource request store srcParentId srcBindName
      dstParentId dstBindName = .ok after) :
    ∃ name,
      DbmsProperties.varchar BridgeMkcol.maxNameLength dstBindName =
        some name ∧
      after.binds.rows = store.binds.rows.map
        (rebound srcParentId srcBindName dstParentId name request.now) ∧
      after.resources = store.resources ∧ after.media = store.media ∧
      after.cleanup = store.cleanup := by
  unfold dbmsRebindResource at done
  split at done
  next => cases done
  next name taken =>
      dsimp only at done
      split at done
      next =>
          rcases Except.ok.inj done with rfl
          exact ⟨name, taken, rfl, rfl, rfl, rfl⟩
      next => cases done

/-- The unique key: exactly the bind that was found is deleted. -/
theorem mem_dbmsDeleteBind
    {target : Bind} {coll : Id} {segment : Text}
    (found : UriLookup.bindNamed store.binds.rows coll segment =
      some target) :
    bind ∈ (dbmsDeleteBind store coll target.resourceId
        segment).binds.rows ↔
      bind ∈ store.binds.rows ∧ bind ≠ target := by
  rcases UriLookup.bindNamed_eq_some found with ⟨listed, isColl, isName⟩
  unfold dbmsDeleteBind BindTable.keep
  rw [List.mem_filter]
  refine and_congr_right fun present => ?_
  simp only [Bool.not_eq_true', Bool.and_eq_false_iff, beq_eq_false_iff_ne]
  constructor
  · rintro other rfl
    rcases other with (other | other) | other
    · exact other isColl
    · exact other rfl
    · exact other isName
  · intro other
    by_contra same
    simp only [not_or, not_not] at same
    exact other (List.inj_on_of_nodup_map store.binds.collectionIdKey present
      listed (Prod.ext (same.1.1.trans isColl.symm)
        (same.2.trans isName.symm)))

end Statements

/-! ## What has been overwritten -/

section Collection

variable {request : Request} {store after : RebindStore} {fuel : Nat}
  {dbR : DavReposResource}

theorem ids_graphOf (store : RebindStore) :
    (graphOf store).ids = store.ids :=
  List.map_map

theorem leftRow_graphOf
    {row : ResourceRow} (listed : row ∈ store.resources) :
    leftRow (graphOf store) row = some row := by
  have member : (row.id, row.type) ∈ (graphOf store).resources :=
    List.mem_map_of_mem listed
  have found := Sql.find_key (graphOf store).resourcesPkey member
  unfold leftRow
  rw [found]
  rfl

theorem keeps_eq_true
    {graph : BridgeUnbind.GraphStore} {id : Id} :
    store.keeps graph id = true ↔ (id ∈ store.ids → id ∈ graph.ids) := by
  unfold RebindStore.keeps
  rw [Bool.or_eq_true, Bool.not_eq_true', decide_eq_false_iff_not,
    decide_eq_true_iff, imp_iff_not_or]

/-- A walk that deletes nothing leaves the tables as they are. -/
theorem sameRows_restrict (store : RebindStore) :
    SameRows store (store.restrict (graphOf store)) := by
  have resources : store.resources.filterMap (leftRow (graphOf store)) =
      store.resources :=
    (List.filterMap_congr fun _ listed => leftRow_graphOf listed).trans
      (List.filterMap_some ..)
  constructor
  · apply List.filter_eq_self.mpr
    intro bind listed
    simp only [resources, Bool.and_eq_true, decide_eq_true_eq]
    exact ⟨⟨listed, store.fkBindCollection bind listed⟩,
      store.fkBindResource bind listed⟩
  · exact resources
  · exact List.filter_eq_self.mpr fun _ _ =>
      keeps_eq_true.mpr fun present => (ids_graphOf store).symm ▸ present

theorem mem_ids_restrict
    {graph : BridgeUnbind.GraphStore} {id : Id} :
    id ∈ (store.restrict graph).ids ↔ id ∈ store.ids ∧ id ∈ graph.ids := by
  constructor
  · intro present
    rcases List.mem_map.mp present with ⟨row, listed, rfl⟩
    rcases List.mem_filterMap.mp listed with ⟨old, isOld, isLeft⟩
    rw [id_of_leftRow isLeft]
    refine ⟨List.mem_map_of_mem isOld, ?_⟩
    rcases Option.map_eq_some_iff.mp isLeft with ⟨entry, found, -⟩
    have same := List.find?_some found
    rw [beq_iff_eq] at same
    exact List.mem_map.mpr ⟨entry, List.mem_of_find?_eq_some found, same⟩
  · rintro ⟨before, left⟩
    rcases List.mem_map.mp before with ⟨row, listed, rfl⟩
    rcases List.mem_map.mp left with ⟨entry, isEntry, same⟩
    have found := Sql.find_key graph.resourcesPkey isEntry
    rw [same] at found
    have isLeft : leftRow graph row = some { row with type := entry.2 } := by
      rw [leftRow, found]
      rfl
    exact List.mem_map.mpr ⟨_, List.mem_filterMap.mpr ⟨row, listed, isLeft⟩,
      rfl⟩

theorem mem_binds_restrict
    {graph : BridgeUnbind.GraphStore} {bind : Bind} :
    bind ∈ (store.restrict graph).binds.rows ↔
      bind ∈ store.binds.rows ∧ bind ∈ graph.binds.rows ∧
        bind.collectionId ∈ (store.restrict graph).ids ∧
          bind.resourceId ∈ (store.restrict graph).ids := by
  unfold RebindStore.restrict BindTable.keep
  simp only [List.mem_filter, Bool.and_eq_true, decide_eq_true_eq, and_assoc]
  rfl

section Walk

variable {orders : BridgeUnbind.RowOrders}
  {graph left : BridgeUnbind.GraphStore}
  {item : DbmsCollection.DavReposResource}

/-- A resource that can be reached ends the walk at once. -/
theorem walk_of_reached
    (unmarked : item.hasBind = false)
    (noUri : item.uri = none)
    (reached : (PathSearch.bindGraph graph.binds.rows).Reaches
      rootCollectionId item.serialno)
    (stopped : BridgeUnbind.sabridgeUnbindResource fuel orders graph item =
      some left) :
    left = graph := by
  have unchanged : BridgeUnbind.deleteBindOf graph item = graph := by
    unfold BridgeUnbind.deleteBindOf
    rw [noUri]
  have stopped := Option.join_eq_some_iff.mp stopped
  cases fuel with
  | zero => cases stopped
  | succ fuel =>
      rw [Loop.run, UnbindCollects.unbindRound_path unmarked
        (unchanged.symm ▸ reached), unchanged] at stopped
      cases fuel with
      | zero => cases stopped
      | succ fuel => exact (Option.some.inj (Option.some.inj stopped)).symm

/-- No pass over the list brings a resource back. -/
theorem mem_ids_of_mem_round
    {state next : BridgeUnbind.GraphStore ×
      List DbmsCollection.DavReposResource} {id : Id}
    (round : BridgeUnbind.unbindRound orders state = .inr next)
    (present : id ∈ next.1.ids) : id ∈ state.1.ids := by
  rcases state with ⟨graph, items⟩
  cases items with
  | nil => cases round
  | cons item items =>
      rcases UnbindHistories.unbindRound_cases orders graph item items with
        none | same | bound | gone
      · cases none.symm.trans round
      · rcases Sum.inr.inj (same.symm.trans round) with rfl
        exact present
      · rcases Sum.inr.inj (bound.symm.trans round) with rfl
        rw [← UnbindCollects.ids_deleteBindOf graph item]
        exact present
      · rcases Sum.inr.inj (gone.symm.trans round) with rfl
        rw [← UnbindCollects.ids_deleteBindOf graph item]
        exact (UnbindHistories.mem_ids_afterDelete.mp present).1

/-- A resource that cannot be reached is deleted. -/
theorem walk_of_unreached
    (unmarked : item.hasBind = false)
    (noUri : item.uri = none)
    (unreached : ¬ (PathSearch.bindGraph graph.binds.rows).Reaches
      rootCollectionId item.serialno)
    (stopped : BridgeUnbind.sabridgeUnbindResource fuel orders graph item =
      some left) :
    item.serialno ∉ left.ids := by
  have unchanged : BridgeUnbind.deleteBindOf graph item = graph := by
    unfold BridgeUnbind.deleteBindOf
    rw [noUri]
  have stopped := Option.join_eq_some_iff.mp stopped
  cases fuel with
  | zero => cases stopped
  | succ fuel =>
      rw [← unchanged] at unreached
      rw [Loop.run] at stopped
      by_cases reads : UnbindHistories.ReadsNone
          (BridgeUnbind.deleteBindOf graph item) item
      · rw [UnbindHistories.unbindRound_undefined unmarked unreached
          reads] at stopped
        cases stopped
      rw [UnbindHistories.unbindRound_deletes unmarked unreached
        reads] at stopped
      have gone : item.serialno ∉ (UnbindHistories.afterDelete
          (BridgeUnbind.deleteBindOf graph item) item).ids :=
        fun present => (UnbindHistories.mem_ids_afterDelete.mp present).2
          (UnbindHistories.serialno_mem_deletedWith _ _)
      dsimp only at stopped
      refine Loop.run_induct
        (P := fun result => ∀ left, result = some left →
          item.serialno ∉ left.ids)
        (I := fun state : BridgeUnbind.GraphStore ×
          List DbmsCollection.DavReposResource =>
            item.serialno ∉ state.1.ids) ?_ ?_ gone stopped left rfl
      · rintro ⟨graph, items⟩ result gone leaves left rfl
        cases items with
        | nil =>
            rcases Option.some.inj (Sum.inl.inj leaves) with rfl
            exact gone
        | cons other items =>
            rcases UnbindHistories.unbindRound_cases orders graph other
              items with none | goes | goes | goes
            · cases none.symm.trans leaves
            · cases goes.symm.trans leaves
            · cases goes.symm.trans leaves
            · cases goes.symm.trans leaves
      · exact fun state next gone round present =>
          gone (mem_ids_of_mem_round round present)

end Walk

/-- What `dbms_insert_cleanup_reqs` does when it returns no error. -/
theorem dbmsInsertCleanupReqs_ok
    {order : Sql.RowOrder Id} {ids : List Id}
    (done : dbmsInsertCleanupReqs order store ids = .ok after) :
    SameRows store after ∧ ∀ id, id ∈ after.cleanup ↔
      id ∈ store.cleanup ∨ id ∈ ids := by
  unfold dbmsInsertCleanupReqs at done
  split at done
  next =>
      rcases Except.ok.inj done with rfl
      refine ⟨⟨rfl, rfl, rfl⟩, fun id => ?_⟩
      rw [List.mem_append, (order.perm 0 _).mem_iff, List.mem_dedup]
  next => cases done

/-- The resource can be reached, or it is only listed. -/
def IsSpared (request : Request) (store : RebindStore) (id : Id) : Prop :=
  request.useGc = true ∨
    (PathSearch.bindGraph store.binds.rows).Reaches rootCollectionId id

theorem sameRows_of_isSpared
    (spared : IsSpared request store dbR.serialno)
    (done : sabridgeUnbindResource request fuel store dbR = .ok after) :
    SameRows store after := by
  unfold sabridgeUnbindResource at done
  split at done
  next => exact (dbmsInsertCleanupReqs_ok done).1
  next noGc =>
      have reached := spared.resolve_left noGc
      split at done
      next => cases done
      next graph stopped =>
          rcases Except.ok.inj done with rfl
          rw [walk_of_reached rfl rfl reached stopped]
          exact sameRows_restrict store

theorem notMem_ids_of_not_isSpared
    (gone : ¬ IsSpared request store dbR.serialno)
    (done : sabridgeUnbindResource request fuel store dbR = .ok after) :
    dbR.serialno ∉ after.ids := by
  rcases not_or.mp gone with ⟨noGc, unreached⟩
  unfold sabridgeUnbindResource at done
  rw [if_neg noGc] at done
  split at done
  next => cases done
  next graph stopped =>
      rcases Except.ok.inj done with rfl
      exact fun present => walk_of_unreached rfl rfl unreached stopped
        (mem_ids_restrict.mp present).2

end Collection

/-! ## The last steps -/

/-- The record is one of a resource of the tables. -/
def Describes (store : RebindStore) (id : Id) (record : DavReposResource) :
    Prop :=
  record.serialno = id ∧
    recordColumns record ∈ store.resources.map rowColumns

section Steps

variable {request : Request} {store after : RebindStore} {fuel : Nat}
  {coll : Id} {segment : Text} {href newBind r record : DavReposResource}
  {result : Rebound}

theorem Describes.mem_ids
    {id : Id} (describes : Describes store id record) : id ∈ store.ids := by
  rcases describes with ⟨isId, columns⟩
  rcases List.mem_map.mp columns with ⟨row, listed, same⟩
  have equal : row.id = id :=
    (congrArg RowColumns.id same).trans isId
  exact equal ▸ List.mem_map_of_mem listed

theorem map_rowColumns_notified
    (touched : List Id) (updatedAt : Option Text) (rows : List ResourceRow) :
    (rows.map (notified touched updatedAt)).map rowColumns =
      rows.map rowColumns := by
  rw [List.map_map]
  apply List.map_congr_left
  intro row _
  rw [Function.comp_apply]
  unfold notified
  split
  · rfl
  · rfl

/-- The rows of `media` after the MIME type of a record has been written. -/
structure TypedMedia (request : Request) (r : DavReposResource)
    (before after : List MediaRow) : Prop where
  others : r.resourcetype ≠ some .resource → after = before
  body : r.resourcetype = some .resource →
    ∃ sha1 path written, request.generatePath sha1 = .ok path ∧
      written.serialno = r.serialno ∧
      written.getcontenttype =
        getMimeType request (r.uri.getD []) path ∧
      after = before.map (updatedMedia written sha1)

/-- What the last steps leave of the tables and of the record. -/
structure Finishes (request : Request) (store after : RebindStore)
    (r record : DavReposResource) : Prop where
  binds : after.binds = store.binds
  columns : after.resources.map rowColumns = store.resources.map rowColumns
  record : recordColumns record = recordColumns r
  media : TypedMedia request r store.media after.media
  cleanup : after.cleanup = store.cleanup

theorem finishes_updateMimeType
    (done : updateMimeType request store r = .ok (after, record)) :
    Finishes request store after r record := by
  unfold updateMimeType at done
  split at done
  next plain =>
      split at done
      next => cases done
      next sha1 _ =>
          split at done
          next => cases done
          next path generated =>
              rcases Except.ok.inj done with ⟨⟩
              exact
                { binds := rfl
                  columns := map_rowColumns_notified _ _ _
                  record := rfl
                  media :=
                    { others := fun other => (other plain).elim
                      body := fun _ =>
                        ⟨sha1, path,
                          { r with
                            getcontenttype :=
                              getMimeType request (r.uri.getD []) path
                            updatedAt := some request.now },
                          generated, rfl, rfl, rfl⟩ }
                  cleanup := rfl }
  next other =>
      rcases Except.ok.inj done with ⟨⟩
      exact
        { binds := rfl
          columns := rfl
          record := rfl
          media :=
            { others := fun _ => rfl
              body := fun plain => (other plain).elim }
          cleanup := rfl }

theorem Finishes.ids
    (finishes : Finishes request store after r record) :
    after.ids = store.ids := by
  have same := congrArg (List.map RowColumns.id) finishes.columns
  rwa [List.map_map, List.map_map] at same

/-- The steps of the function when it returns no error. -/
structure Runs (request : Request) (fuel : Nat) (store : RebindStore)
    (coll : Id) (segment : Text) (href newBind : DavReposResource)
    (result : Rebound) (parent read : DavReposResource)
    (moved : RebindStore) : Prop where
  retrieves : sabridgeRetrieveParent request.libraries store.toPropertyTables
    href = .ok parent
  moves : moveBind request fuel store parent.serialno coll
    (basename (href.uri.getD [])) segment newBind = .ok moved
  reads : sabridgeGetProperty moved.toPropertyTables newBind = .ok read
  finishes : Finishes request moved result.store read result.newBind

theorem exists_runs
    (done : davReposRebindResource request fuel store coll segment href
      newBind = .ok result) :
    ∃ parent read moved, Runs request fuel store coll segment href newBind
      result parent read moved := by
  simp only [davReposRebindResource, bind_eq_ok] at done
  rcases done with ⟨parent, retrieved, moved, moves, _, -, read, reads,
    ⟨written, record⟩, updates, last, inherits, ends⟩
  rcases Except.ok.inj ends with ⟨⟩
  have finishes := finishes_updateMimeType updates
  refine ⟨parent, read, moved, retrieved, moves, reads, ?_⟩
  unfold dbmsChangeAclParent at inherits
  split at inherits
  next => cases inherits
  next =>
      rcases Except.ok.inj inherits with rfl
      exact ⟨finishes.binds, finishes.columns, finishes.record,
        finishes.media, finishes.cleanup⟩

/-- How the binds are changed, whether or not a resource is overwritten. -/
theorem moveBind_ok
    {parentId : Id} {name : Text}
    (done : moveBind request fuel store parentId coll name segment newBind =
      .ok after) :
    (existsResource newBind = true ∧ ∃ changed,
      dbmsRebindResource request
        (dbmsDeleteBind store coll newBind.serialno segment) parentId name
        coll segment = .ok changed ∧
      sabridgeUnbindResource request fuel changed newBind = .ok after) ∨
    (existsResource newBind = false ∧
      dbmsRebindResource request store parentId name coll segment =
        .ok after) := by
  unfold moveBind at done
  split at done
  next isThere =>
      rcases bind_eq_ok.mp done with ⟨changed, moves, unbinds⟩
      exact Or.inl ⟨isThere, changed, moves, unbinds⟩
  next missing => exact Or.inr ⟨Bool.eq_false_iff.mpr missing, done⟩

end Steps

end Limestone.Rebind
