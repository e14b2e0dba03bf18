import Limestone.RebindSteps
import Limestone.ReverseLookup
import Mathlib.Data.List.DropRight

/-!
# MOVE as rebind

A move is right if the binds are changed as they are to be and the record of
the target is that of the resource that has been moved.  Where nothing is at
the target, its URI is looked up again, and the bind that has been moved must
not be on the way; where something is, it is read by its own id.
-/

namespace Limestone.MoveAsRebind

open Library
open BridgeProperty hiding sabridgeGetProperty
open CopyMedium (updatedMedia)
open DbmsBind
open GetResource (LeadsTo RowColumns)
open Rebind
open VersionLinks (Libraries)

/-! ## URIs -/

section Uris

variable {table : BindTable} {path other name rootPath rest : Text} {id : Id}

theorem tokens_member (isName : Segments.IsSegment '/' name) :
    Segments.tokens '/' (path ++ '/' :: name) =
      Segments.tokens '/' path ++ [name] := by
  rw [Segments.tokens_append_sep, Segments.tokens_segment isName]

theorem leadsTo_congr
    (leads : LeadsTo table.rows path id)
    (same : Segments.tokens '/' other = Segments.tokens '/' path) :
    LeadsTo table.rows other id where
  noQuestion := by
    have separator : '?' ≠ '/' := by decide
    rw [Segments.mem_tokens_iff separator, same,
      ← Segments.mem_tokens_iff separator]
    exact leads.noQuestion
  whole := by
    rw [same]
    exact leads.whole
  ends := by
    rw [same]
    exact leads.ends

/-- A URI that leads to a resource follows a trail of binds. -/
theorem exists_trail
    (leads : LeadsTo table.rows path id) :
    (PathSearch.bindGraph table.rows).Trail rootCollectionId
        (UriLookup.walkBinds table.rows rootCollectionId
          (Segments.tokens '/' path)) id ∧
      (UriLookup.walkBinds table.rows rootCollectionId
        (Segments.tokens '/' path)).map Bind.name =
          Segments.tokens '/' path := by
  rcases ReverseLookup.exists_trail_of_leads table
    ⟨leads.whole, leads.ends⟩ with ⟨chain, trail, names⟩
  rw [← names, ReverseLookup.walkBinds_of_trail table trail]
  exact ⟨trail, rfl⟩

theorem leadsTo_of_trail
    {chain : List Bind}
    (trail : (PathSearch.bindGraph table.rows).Trail rootCollectionId chain id)
    (names : chain.map Bind.name = Segments.tokens '/' path)
    (noQuestion : '?' ∉ path) :
    LeadsTo table.rows path id := by
  have leads := ReverseLookup.leads_of_trail table trail
  rw [names] at leads
  exact ⟨noQuestion, leads.1, leads.2⟩

/-- The walk stops where a name is missing. -/
theorem walkBinds_of_stop
    {fromResId toResId : Id} {chain : List Bind} {names : List Text}
    (trail : (PathSearch.bindGraph table.rows).Trail fromResId chain toResId)
    (missing : UriLookup.bindNamed table.rows toResId name = none) :
    UriLookup.walkBinds table.rows fromResId
      (chain.map Bind.name ++ name :: names) = chain := by
  induction chain generalizing fromResId with
  | nil =>
      rcases trail with rfl
      rw [List.map_nil, List.nil_append, UriLookup.walkBinds, missing]
  | cons bind chain induction =>
      rcases trail with ⟨present, leaves, trail⟩
      rcases leaves with rfl
      have found : UriLookup.bindNamed table.rows
          ((PathSearch.bindGraph table.rows).source bind) bind.name =
            some bind :=
        ReverseLookup.bindNamed_of_mem table present
      rw [List.map_cons, List.cons_append, UriLookup.walkBinds, found]
      exact congrArg (List.cons bind) (induction trail)

/-- A URI that stops in a collection is read without a resource. -/
theorem isUnread_of_stop
    {tables : PropertyTables} {r record : DavReposResource}
    {chain : List Bind} (names : List Text)
    (unique : (tables.resources.map ResourceRow.id).Nodup)
    (trail : (PathSearch.bindGraph tables.binds.rows).Trail rootCollectionId
      chain id)
    (missing : UriLookup.bindNamed tables.binds.rows id name = none)
    (isTokens : Segments.tokens '/' rest =
      chain.map Bind.name ++ name :: names)
    (plain : IsPlain tables id)
    (unread : IsUnread rootPath rest r)
    (read : sabridgeGetProperty tables r = .ok record) :
    IsUnread rootPath rest record := by
  have stops : UriLookup.walkBinds tables.binds.rows rootCollectionId
      (Segments.tokens '/' rest) = chain := by
    rw [isTokens]
    exact walkBinds_of_stop trail missing
  apply isUnread_of_inPart unique ?_ ?_ unread read
  · rw [stops, isTokens, List.length_append, List.length_map,
      List.length_cons]
    omega
  · intro last ends
    rw [stops] at ends
    have same := ReverseLookup.getLast?_of_trail trail
    rw [ends] at same
    rcases same with rfl
    exact plain

/-! ## The parent -/

theorem tokens_rdropWhile (text : Text) :
    Segments.tokens '/' (text.rdropWhile fun char => char == '/') =
      Segments.tokens '/' text := by
  induction text using List.reverseRecOn with
  | nil => rfl
  | append_singleton text char induction =>
      by_cases slash : char = '/'
      · rw [slash, List.rdropWhile_concat_pos _ _ _ rfl, induction,
          Segments.tokens_append_sep, Segments.tokens_nil, List.append_nil]
      · have other : ¬ (char == '/') = true :=
          fun same => slash (beq_iff_eq.mp same)
        rw [List.rdropWhile_concat_neg (fun char => char == '/') _ _ other]

theorem rdropWhile_append
    (rootEnds : rootPath.getLast? ≠ some '/') (path : Text) :
    (rootPath ++ path).rdropWhile (fun char => char == '/') =
      rootPath ++ path.rdropWhile fun char => char == '/' := by
  induction path using List.reverseRecOn with
  | nil =>
      rw [List.append_nil, List.rdropWhile_nil, List.append_nil]
      apply List.rdropWhile_eq_self_iff.mpr
      intro nonempty slash
      apply rootEnds
      rw [List.getLast?_eq_some_getLast nonempty, beq_iff_eq.mp slash]
  | append_singleton path char induction =>
      rw [← List.append_assoc]
      by_cases slash : char = '/'
      · rw [slash, List.rdropWhile_concat_pos _ _ _ rfl,
          List.rdropWhile_concat_pos _ _ _ rfl, induction]
      · have other : ¬ (char == '/') = true :=
          fun same => slash (beq_iff_eq.mp same)
        rw [List.rdropWhile_concat_neg (fun char => char == '/') _ _ other,
          List.rdropWhile_concat_neg (fun char => char == '/') _ _ other,
          List.append_assoc]

/-- Slashes are cut off behind a root path that does not end in one. -/
theorem exists_chompTrailingSlash
    (rootEnds : rootPath.getLast? ≠ some '/') (path : Text) :
    ∃ rest, InsertResource.chompTrailingSlash (rootPath ++ path) =
        rootPath ++ rest ∧
      Segments.tokens '/' rest = Segments.tokens '/' path := by
  unfold InsertResource.chompTrailingSlash
  split
  next =>
      exact ⟨path.rdropWhile fun char => char == '/',
        rdropWhile_append rootEnds path, tokens_rdropWhile path⟩
  next => exact ⟨path, rfl, rfl⟩

end Uris

/-! ## A move -/

/-- A call, with the resources that its two URIs and the collection lead to. -/
structure Move where
  store : RebindStore
  rootPath : Text
  collPath : Text
  coll : Id
  segment : Text
  parentPath : Text
  parent : Id
  name : Text
  source : Bind
  href : DavReposResource
  newBind : DavReposResource
  -- the last slashes of a root path are cut off
  rootEnds : rootPath.getLast? ≠ some '/'
  isSegment : Segments.IsSegment '/' segment
  isName : Segments.IsSegment '/' name
  collLeads : LeadsTo store.binds.rows collPath coll
  collType : (store.typeOf coll).any ResourceType.isCollection = true
  parentLeads : LeadsTo store.binds.rows parentPath parent
  parentType : (store.typeOf parent).any ResourceType.isCollection = true
  isSource : UriLookup.bindNamed store.binds.rows parent name = some source
  hrefRead : getResource store.toPropertyTables rootPath
    (parentPath ++ '/' :: name) = .ok href
  newBindRead : getResource store.toPropertyTables rootPath
    (collPath ++ '/' :: segment) = .ok newBind

/-- The resource that is moved. -/
def Move.moved (move : Move) : Id :=
  move.source.resourceId

/-- The bind that the target is given by, if there is one. -/
def Move.target (move : Move) : Option Bind :=
  UriLookup.bindNamed move.store.binds.rows move.coll move.segment

/-- What a move is to do; collections that are deleted have no binds left. -/
structure Rebinds (request : Request) (move : Move) (result : Rebound) :
    Prop where
  others : ∀ bind, bind.key ≠ (move.parent, move.name) →
    bind.key ≠ (move.coll, move.segment) →
    bind.collectionId ∈ result.store.ids →
      (bind ∈ result.store.binds.rows ↔ bind ∈ move.store.binds.rows)
  source : (move.parent, move.name) ≠ (move.coll, move.segment) →
    ∀ bind ∈ result.store.binds.rows, bind.key ≠ (move.parent, move.name)
  target : move.coll ∈ result.store.ids →
    ∃ bind ∈ result.store.binds.rows,
      bind.key = (move.coll, move.segment) ∧ bind.resourceId = move.moved
  record : Describes result.store move.moved result.newBind
  mimetype : move.store.typeOf move.moved = some .resource →
    ∀ row ∈ result.store.media, row.resourceId = move.moved →
      ∃ path, request.generatePath row.sha1 = .ok path ∧
        row.mimetype = getMimeType request
          (move.rootPath ++ (move.collPath ++ '/' :: move.segment)) path
  media : ∀ row, row.resourceId ≠ move.moved →
    row.resourceId ∈ result.store.ids →
      (row ∈ result.store.media ↔ row ∈ move.store.media)

/--
Nothing is at the target, and the collection is found without the bind that is
moved; or the target is the moved resource itself under another name, which is
not cut off from the root.
-/
def CanRebind (request : Request) (move : Move) : Prop :=
  match move.target with
  | none =>
      move.segment.length ≤ BridgeMkcol.maxNameLength ∧
        move.source ∉ UriLookup.walkBinds move.store.binds.rows
          rootCollectionId (Segments.tokens '/' move.collPath)
  | some target =>
      target.resourceId = move.moved ∧
        (move.store.typeOf move.moved = some .lockNull ∨
          target ≠ move.source ∧
            (request.useGc = true ∨
              ((PathSearch.bindGraph move.store.binds.rows).restrict
                fun bind => bind ≠ move.source).Reaches
                  rootCollectionId move.moved))

section Records

variable {move : Move} {store : RebindStore}

theorem typeOf_row
    {row : ResourceRow} (listed : row ∈ store.resources) :
    store.typeOf row.id = some row.type := by
  unfold RebindStore.typeOf
  rw [Sql.find_key store.resourcesPkey listed]
  rfl

theorem isPlain_of_isCollection
    {id : Id}
    (isCollection : (store.typeOf id).any ResourceType.isCollection = true) :
    IsPlain store.toPropertyTables id := by
  unfold RebindStore.typeOf at isCollection
  cases found : store.resources.find? fun row => row.id == id with
  | none =>
      rw [found] at isCollection
      cases isCollection
  | some row =>
      rw [found] at isCollection
      have same := List.find?_some found
      refine ⟨row, List.mem_of_find?_eq_some found, beq_iff_eq.mp same, ?_⟩
      intro redirect
      rw [Option.map_some, Option.any_some, redirect] at isCollection
      cases isCollection

/-- A member of a collection has the URI of the collection and its name. -/
theorem leadsTo_member
    {table : BindTable} {path name : Text} {coll : Id} {bind : Bind}
    (leads : LeadsTo table.rows path coll)
    (found : UriLookup.bindNamed table.rows coll name = some bind)
    (isName : Segments.IsSegment '/' name)
    (noQuestion : '?' ∉ path ++ '/' :: name) :
    LeadsTo table.rows (path ++ '/' :: name) bind.resourceId := by
  rcases exists_trail leads with ⟨trail, names⟩
  rcases UriLookup.bindNamed_eq_some found with ⟨listed, rfl, rfl⟩
  have last : (PathSearch.bindGraph table.rows).Trail bind.collectionId [bind]
      bind.resourceId :=
    ⟨listed, rfl, rfl⟩
  refine leadsTo_of_trail (trail.append last) ?_ noQuestion
  rw [List.map_append, names, tokens_member isName]
  rfl

theorem Move.key_source (move : Move) :
    move.source ∈ move.store.binds.rows ∧
      move.source.key = (move.parent, move.name) := by
  rcases UriLookup.bindNamed_eq_some move.isSource with ⟨listed, coll, name⟩
  exact ⟨listed, Prod.ext coll name⟩

theorem Move.key_target
    {target : Bind} (found : move.target = some target) :
    target ∈ move.store.binds.rows ∧
      target.key = (move.coll, move.segment) := by
  rcases UriLookup.bindNamed_eq_some found with ⟨listed, coll, name⟩
  exact ⟨listed, Prod.ext coll name⟩

theorem exists_row
    {id : Id} (present : id ∈ store.ids) :
    ∃ row ∈ store.resources, row.id = id :=
  List.mem_map.mp present

/-- What is read for a member of a collection. -/
theorem exists_isRead_member
    {rootPath path name : Text} {coll : Id} {bind : Bind}
    {record : DavReposResource}
    (leads : LeadsTo store.binds.rows path coll)
    (found : UriLookup.bindNamed store.binds.rows coll name = some bind)
    (isName : Segments.IsSegment '/' name)
    (read : getResource store.toPropertyTables rootPath
      (path ++ '/' :: name) = .ok record) :
    ∃ row ∈ store.resources, row.id = bind.resourceId ∧
      IsRead row (newResource rootPath (rootPath ++ (path ++ '/' :: name)))
        record := by
  have listed := (UriLookup.bindNamed_eq_some found).1
  rcases exists_row (store.fkBindResource bind listed) with
    ⟨row, isRow, isId⟩
  have nonempty : Segments.tokens '/' (path ++ '/' :: name) ≠ [] := by
    rw [tokens_member isName]
    exact List.append_ne_nil_of_right_ne_nil _ nofun
  have noQuestion := notMem_question nonempty
    (isUnread_newResource rootPath (path ++ '/' :: name)) read
  have member := leadsTo_member leads found isName noQuestion
  rw [← isId] at member
  exact ⟨row, isRow, isId, isRead_of_leadsTo store.resourcesPkey isRow member
    (isUnread_newResource rootPath (path ++ '/' :: name)) read⟩

theorem Move.uri_href (move : Move) :
    move.href.rootPath = some move.rootPath ∧
      move.href.uri =
        some (move.rootPath ++ (move.parentPath ++ '/' :: move.name)) := by
  rcases exists_isRead_member move.parentLeads move.isSource move.isName
    move.hrefRead with ⟨row, -, -, isRead⟩
  exact ⟨isRead.rootPath, isRead.uri⟩

theorem Move.basename_href (move : Move) :
    basename (move.href.uri.getD []) = move.name := by
  rw [move.uri_href.2, Option.getD_some, ← List.append_assoc]
  unfold basename
  rw [tokens_member move.isName, List.getLastD_concat]

/-- The collection that the moved bind is in is the parent that is read. -/
theorem Move.serialno_parent
    {libraries : Libraries} {parent : DavReposResource}
    (retrieved : sabridgeRetrieveParent libraries move.store.toPropertyTables
      move.href = .ok parent) :
    parent.serialno = move.parent := by
  have dir : libraries.makeDirstrParent
      (move.rootPath ++ (move.parentPath ++ '/' :: move.name)) =
        move.rootPath ++ (move.parentPath ++ ['/']) := by
    rw [← List.append_assoc, libraries.dirstr_append _ _ move.isName.2,
      List.append_assoc]
  rcases exists_chompTrailingSlash move.rootEnds (move.parentPath ++ ['/'])
    with ⟨rest, chomped, tokens⟩
  rw [Segments.tokens_append_sep, Segments.tokens_nil,
    List.append_nil] at tokens
  have leads := leadsTo_congr move.parentLeads tokens
  rcases isPlain_of_isCollection move.parentType with ⟨row, listed, isId, -⟩
  unfold sabridgeRetrieveParent InsertResource.retrieveParent at retrieved
  rw [move.uri_href.2] at retrieved
  dsimp only at retrieved
  split at retrieved
  next => cases retrieved
  next =>
      rw [dir, chomped, move.uri_href.1] at retrieved
      split at retrieved
      next read =>
          rcases Except.ok.inj retrieved with rfl
          rw [← isId] at leads
          exact (isRead_of_leadsTo move.store.resourcesPkey listed leads
            ⟨rfl, rfl, rfl⟩ read).serialno.trans isId
      next => cases retrieved

/-- The record of a target that names nothing. -/
theorem Move.isUnread_newBind
    (missing : move.target = none) :
    IsUnread move.rootPath (move.collPath ++ '/' :: move.segment)
      move.newBind := by
  rcases exists_trail move.collLeads with ⟨trail, names⟩
  apply isUnread_of_stop [] move.store.resourcesPkey trail missing ?_
    (isPlain_of_isCollection move.collType) (isUnread_newResource _ _)
    move.newBindRead
  rw [tokens_member move.isSegment, names]

theorem Move.coll_mem_ids (move : Move) : move.coll ∈ move.store.ids := by
  rcases isPlain_of_isCollection move.collType with ⟨row, listed, isId, -⟩
  exact List.mem_map.mpr ⟨row, listed, isId⟩

theorem Move.moved_pos (move : Move) : 0 < move.moved :=
  (move.store.binds.positive move.source move.key_source.1).2

end Records

/-! ## Moves that are right -/

section Moves

variable {request : Request} {fuel : Nat} {move : Move}
  {moved : RebindStore} {result : Rebound} {parent read : DavReposResource}

/-- The tables after the binds have been changed as they are to be. -/
structure IsMoved (move : Move) (moved : RebindStore) : Prop where
  others : ∀ bind, bind.key ≠ (move.parent, move.name) →
    bind.key ≠ (move.coll, move.segment) →
      (bind ∈ moved.binds.rows ↔ bind ∈ move.store.binds.rows)
  source : (move.parent, move.name) ≠ (move.coll, move.segment) →
    ∀ bind ∈ moved.binds.rows, bind.key ≠ (move.parent, move.name)
  target : ∃ bind ∈ moved.binds.rows,
    bind.key = (move.coll, move.segment) ∧ bind.resourceId = move.moved
  resources : moved.resources = move.store.resources
  media : moved.media = move.store.media

theorem mem_map_updatedMedia
    {written : DavReposResource} {sha1 : Text} {rows : List MediaRow}
    {row : MediaRow} (other : row.resourceId ≠ written.serialno) :
    row ∈ rows.map (updatedMedia written sha1) ↔ row ∈ rows := by
  constructor
  · intro member
    rcases List.mem_map.mp member with ⟨old, listed, rfl⟩
    by_cases same : old.resourceId = written.serialno
    · unfold updatedMedia at other
      rw [if_pos same] at other
      exact absurd same other
    · rwa [updatedMedia, if_neg same]
  · exact fun listed =>
      List.mem_map.mpr ⟨row, listed, if_neg other⟩

theorem updatedMedia_of_resourceId
    {written : DavReposResource} {sha1 : Text} {rows : List MediaRow}
    {row : MediaRow}
    (member : row ∈ rows.map (updatedMedia written sha1))
    (same : row.resourceId = written.serialno) :
    row.mimetype = written.getcontenttype ∧ row.sha1 = sha1 := by
  rcases List.mem_map.mp member with ⟨old, -, rfl⟩
  by_cases was : old.resourceId = written.serialno
  · rw [updatedMedia, if_pos was]
    exact ⟨rfl, rfl⟩
  · rw [updatedMedia, if_neg was] at same
    exact absurd same was

/-- If the binds are right and the moved resource is read, all is right. -/
theorem rebinds_of_isMoved
    {row : ResourceRow} {r : DavReposResource}
    (isMoved : IsMoved move moved)
    (listed : row ∈ move.store.resources)
    (isRow : row.id = move.moved)
    (isRead : IsRead row r read)
    (uri : r.uri = some
      (move.rootPath ++ (move.collPath ++ '/' :: move.segment)))
    (finishes : Finishes request moved result.store read result.newBind) :
    Rebinds request move result := by
  have serialno : read.serialno = move.moved := isRead.serialno.trans isRow
  have type : read.resourcetype = move.store.typeOf move.moved := by
    rw [isRead.resourcetype, ← isRow, typeOf_row listed]
  constructor
  · intro bind notSource notTarget _
    rw [finishes.binds]
    exact isMoved.others bind notSource notTarget
  · rw [finishes.binds]
    exact isMoved.source
  · rw [finishes.binds]
    exact fun _ => isMoved.target
  · refine ⟨?_, ?_⟩
    · exact (congrArg RowColumns.id finishes.record).trans serialno
    · rw [finishes.columns, isMoved.resources, finishes.record,
        isRead.columns]
      exact List.mem_map_of_mem listed
  · intro plain media member isBody
    rcases finishes.media.body (type.trans plain) with
      ⟨sha1, path, written, generated, same, contenttype, after⟩
    rw [after] at member
    rcases updatedMedia_of_resourceId member
      (isBody.trans (serialno.symm.trans same.symm)) with ⟨mimetype, body⟩
    refine ⟨path, body ▸ generated, ?_⟩
    rw [mimetype, contenttype, isRead.uri, uri, Option.getD_some]
  · intro media other _
    rw [← isMoved.media]
    by_cases plain : read.resourcetype = some .resource
    · rcases finishes.media.body plain with
        ⟨sha1, path, written, -, same, -, after⟩
      rw [after]
      exact mem_map_updatedMedia
        (fun isBody => other (isBody.trans (same.trans serialno)))
    · rw [finishes.media.others plain]

/-- A name that is bound fits the column. -/
theorem varchar_of_bound
    {store : RebindStore} {bind : Bind} {name : Text}
    (listed : bind ∈ store.binds.rows)
    (taken : DbmsProperties.varchar BridgeMkcol.maxNameLength bind.name =
      some name) :
    name = bind.name := by
  rw [DbmsProperties.varchar, if_pos (store.nameLength bind listed)] at taken
  exact (Option.some.inj taken).symm

theorem resourceId_pos
    {target : Bind} (found : move.target = some target) :
    0 < target.resourceId :=
  (move.store.binds.positive target (Move.key_target found).1).2

/-- The binds with one key are one. -/
theorem eq_of_key
    {table : BindTable} {first second : Bind}
    (isFirst : first ∈ table.rows) (isSecond : second ∈ table.rows)
    (same : first.key = second.key) : first = second :=
  List.inj_on_of_nodup_map table.collectionIdKey isFirst isSecond same

/-- The bind that has been moved, in its new place. -/
theorem exists_moved_bind
    {rows : List Bind} (now : Text)
    (listed : move.source ∈ rows) :
    ∃ bind ∈ rows.map (rebound move.parent move.name move.coll move.segment
        now),
      bind.key = (move.coll, move.segment) ∧ bind.resourceId = move.moved :=
  ⟨_, List.mem_map_of_mem listed, key_rebound_of_source move.key_source.2,
    resourceId_rebound _ _ _ _ _ _⟩

end Moves

section Cases

variable {request : Request} {fuel : Nat} {move : Move}
  {moved : RebindStore} {result : Rebound} {parent read : DavReposResource}

theorem isMoved_of_map
    {base : List Bind} {now : Text}
    (rows : moved.binds.rows = base.map
      (rebound move.parent move.name move.coll move.segment now))
    (frame : ∀ bind, bind.key ≠ (move.coll, move.segment) →
      (bind ∈ base ↔ bind ∈ move.store.binds.rows))
    (listed : move.source ∈ base)
    (resources : moved.resources = move.store.resources)
    (media : moved.media = move.store.media) :
    IsMoved move moved where
  others := by
    intro bind notSource notTarget
    rw [rows, mem_map_rebound notSource notTarget]
    exact frame bind notTarget
  source := by
    intro moves bind member
    rw [rows] at member
    exact key_ne_source moves member
  target := by
    rw [rows]
    exact exists_moved_bind _ listed
  resources := resources
  media := media

theorem moveBind_of_runs
    (runs : Runs request fuel move.store move.coll move.segment move.href
      move.newBind result parent read moved) :
    moveBind request fuel move.store move.parent move.coll move.name
      move.segment move.newBind = .ok moved := by
  have moves := runs.moves
  rwa [move.serialno_parent runs.retrieves, move.basename_href] at moves

/-- Where the record has another id, it is not that of the moved resource. -/
theorem not_rebinds_of_serialno
    (other : read.serialno ≠ move.moved)
    (finishes : Finishes request moved result.store read result.newBind) :
    ¬ Rebinds request move result := by
  intro rebinds
  exact other ((congrArg RowColumns.id finishes.record).symm.trans
    rebinds.record.1)

/-- Where nothing is bound at the target, the bind is lost. -/
theorem not_rebinds_of_target
    (present : move.coll ∈ moved.ids)
    (unbound : ∀ bind ∈ moved.binds.rows,
      bind.key ≠ (move.coll, move.segment))
    (finishes : Finishes request moved result.store read result.newBind) :
    ¬ Rebinds request move result := by
  intro rebinds
  rcases rebinds.target (finishes.ids.symm ▸ present) with
    ⟨bind, listed, key, -⟩
  rw [finishes.binds] at listed
  exact unbound bind listed key

/-! ### Nothing is at the target -/

theorem unbound_of_missing
    (missing : move.target = none) :
    ∀ bind ∈ move.store.binds.rows,
      bind.key ≠ (move.coll, move.segment) := by
  intro bind listed key
  have found := ReverseLookup.bindNamed_of_mem move.store.binds listed
  have isColl : bind.collectionId = move.coll := congrArg Prod.fst key
  have isName : bind.name = move.segment := congrArg Prod.snd key
  rw [isColl, isName] at found
  cases found.symm.trans missing

/-- Where nothing is overwritten, the bind is moved and nothing else done. -/
theorem moves_of_absent
    (absent : existsResource move.newBind = false)
    (runs : Runs request fuel move.store move.coll move.segment move.href
      move.newBind result parent read moved) :
    ∃ name,
      DbmsProperties.varchar BridgeMkcol.maxNameLength move.segment =
        some name ∧
      moved.binds.rows = move.store.binds.rows.map
        (rebound move.parent move.name move.coll name request.now) ∧
      moved.resources = move.store.resources ∧
      moved.media = move.store.media ∧
      moved.cleanup = move.store.cleanup := by
  rcases moveBind_ok (moveBind_of_runs runs) with ⟨isThere, -⟩ | ⟨-, moves⟩
  · cases absent.symm.trans isThere
  · exact dbmsRebindResource_ok moves

theorem existsResource_of_missing
    (missing : move.target = none) :
    existsResource move.newBind = false := by
  unfold existsResource
  rw [(Move.isUnread_newBind missing).unknown]
  rfl

theorem bindNamed_eq_none
    {rows : List Bind} {collId : Id} {name : Text}
    (unbound : ∀ bind ∈ rows, bind.key ≠ (collId, name)) :
    UriLookup.bindNamed rows collId name = none := by
  cases found : UriLookup.bindNamed rows collId name with
  | none => rfl
  | some bind =>
      rcases UriLookup.bindNamed_eq_some found with ⟨listed, isColl, isName⟩
      exact absurd (Prod.ext isColl isName) (unbound bind listed)

/-- Binds that are neither moved nor at the target are followed as before. -/
theorem trail_of_isMoved
    {chain : List Bind} {id : Id}
    (missing : move.target = none)
    (isMoved : IsMoved move moved)
    (trail : (PathSearch.bindGraph move.store.binds.rows).Trail
      rootCollectionId chain id)
    (fresh : move.source ∉ chain) :
    (PathSearch.bindGraph moved.binds.rows).Trail rootCollectionId chain
      id := by
  refine trail.transfer ?_ rfl rfl
  intro bind member listed
  refine (isMoved.others bind ?_ ?_).mpr listed
  · intro key
    have same := eq_of_key listed move.key_source.1
      (key.trans move.key_source.2.symm)
    exact fresh (same ▸ member)
  · exact unbound_of_missing missing bind listed

theorem source_ne_target
    (missing : move.target = none) :
    (move.parent, move.name) ≠ (move.coll, move.segment) := by
  rw [← move.key_source.2]
  exact unbound_of_missing missing move.source move.key_source.1

/-- A collection that is found through the bind that is moved is lost. -/
theorem serialno_of_through
    (missing : move.target = none)
    (through : move.source ∈ UriLookup.walkBinds move.store.binds.rows
      rootCollectionId (Segments.tokens '/' move.collPath))
    (isMoved : IsMoved move moved)
    (reads : sabridgeGetProperty moved.toPropertyTables move.newBind =
      .ok read) :
    read.serialno = 0 := by
  rcases exists_trail move.collLeads with ⟨trail, names⟩
  rcases List.eq_append_cons_of_mem through with
    ⟨first, last, chain, fresh⟩
  rw [chain] at trail names
  rcases Multigraph.trail_append.mp trail with ⟨middle, toParent, -, same, -⟩
  have isParent : middle = move.parent :=
    same.symm.trans (congrArg Prod.fst move.key_source.2)
  rw [isParent] at toParent
  have isName : move.source.name = move.name :=
    congrArg Prod.snd move.key_source.2
  have plain : IsPlain moved.toPropertyTables move.parent := by
    unfold IsPlain
    rw [isMoved.resources]
    exact isPlain_of_isCollection move.parentType
  refine (isUnread_of_stop (last.map Bind.name ++ [move.segment])
    moved.resourcesPkey (trail_of_isMoved missing isMoved toParent fresh)
    (bindNamed_eq_none (isMoved.source (source_ne_target missing))) ?_ plain
    (Move.isUnread_newBind missing) reads).unknown
  rw [tokens_member move.isSegment, ← names, List.map_append, List.map_cons,
    isName, List.append_assoc, List.cons_append]

/-- A collection that is found without it has the moved resource now. -/
theorem exists_isRead_of_not_through
    (missing : move.target = none)
    (fresh : move.source ∉ UriLookup.walkBinds move.store.binds.rows
      rootCollectionId (Segments.tokens '/' move.collPath))
    (isMoved : IsMoved move moved)
    (reads : sabridgeGetProperty moved.toPropertyTables move.newBind =
      .ok read) :
    ∃ row ∈ move.store.resources, row.id = move.moved ∧
      IsRead row move.newBind read := by
  rcases exists_trail move.collLeads with ⟨trail, names⟩
  have kept := trail_of_isMoved missing isMoved trail fresh
  rcases isMoved.target with ⟨bind, listed, key, isMovedId⟩
  have last : (PathSearch.bindGraph moved.binds.rows).Trail move.coll [bind]
      bind.resourceId :=
    ⟨listed, congrArg Prod.fst key, rfl⟩
  have unread := Move.isUnread_newBind missing
  have nonempty : Segments.tokens '/'
      (move.collPath ++ '/' :: move.segment) ≠ [] := by
    rw [tokens_member move.isSegment]
    exact List.append_ne_nil_of_right_ne_nil _ nofun
  rcases exists_row (move.store.fkBindResource move.source
    move.key_source.1) with ⟨row, isRow, isId⟩
  have leads : LeadsTo moved.binds.rows
      (move.collPath ++ '/' :: move.segment) row.id := by
    rw [isId, ← Move.moved, ← isMovedId]
    refine leadsTo_of_trail (kept.append last) ?_
      (notMem_question nonempty unread reads)
    rw [List.map_append, names, tokens_member move.isSegment]
    exact congrArg (_ ++ [·]) (congrArg Prod.snd key)
  exact ⟨row, isRow, isId, isRead_of_leadsTo moved.resourcesPkey
    (isMoved.resources.symm ▸ isRow) leads unread reads⟩

/-- A name that is cut is bound to another place. -/
theorem not_rebinds_of_long
    (missing : move.target = none)
    (long : ¬ move.segment.length ≤ BridgeMkcol.maxNameLength)
    (runs : Runs request fuel move.store move.coll move.segment move.href
      move.newBind result parent read moved) :
    ¬ Rebinds request move result := by
  rcases moves_of_absent (existsResource_of_missing missing) runs with
    ⟨name, taken, rows, resources, -, -⟩
  apply not_rebinds_of_target ?_ ?_ runs.finishes
  · unfold RebindStore.ids
    rw [resources]
    exact move.coll_mem_ids
  · intro bind member key
    have short := moved.nameLength bind member
    have isName : bind.name = move.segment := congrArg Prod.snd key
    exact long (isName ▸ short)

theorem rebinds_iff_of_missing
    (missing : move.target = none)
    (runs : Runs request fuel move.store move.coll move.segment move.href
      move.newBind result parent read moved) :
    Rebinds request move result ↔
      move.segment.length ≤ BridgeMkcol.maxNameLength ∧
        move.source ∉ UriLookup.walkBinds move.store.binds.rows
          rootCollectionId (Segments.tokens '/' move.collPath) := by
  by_cases short : move.segment.length ≤ BridgeMkcol.maxNameLength
  · rw [and_iff_right short]
    rcases moves_of_absent (existsResource_of_missing missing) runs with
      ⟨name, taken, rows, resources, media, -⟩
    rw [DbmsProperties.varchar, if_pos short] at taken
    rcases Option.some.inj taken with rfl
    have isMoved := isMoved_of_map rows (fun _ _ => Iff.rfl)
      move.key_source.1 resources media
    by_cases through : move.source ∈ UriLookup.walkBinds
        move.store.binds.rows rootCollectionId
          (Segments.tokens '/' move.collPath)
    · refine iff_of_false ?_ (not_not.mpr through)
      apply not_rebinds_of_serialno ?_ runs.finishes
      rw [serialno_of_through missing through isMoved runs.reads]
      exact Int.ne_of_lt move.moved_pos
    · refine iff_of_true ?_ through
      rcases exists_isRead_of_not_through missing through isMoved runs.reads
        with ⟨row, listed, isRow, isRead⟩
      exact rebinds_of_isMoved isMoved listed isRow isRead
        (Move.isUnread_newBind missing).isUri runs.finishes
  · exact iff_of_false (not_rebinds_of_long missing short runs)
      fun both => short both.1

end Cases

/-! ### A resource is at the target -/

section Targets

variable {request : Request} {fuel : Nat} {move : Move}
  {moved changed : RebindStore} {result : Rebound}
  {parent read : DavReposResource} {target : Bind}

/-- The record of the resource at the target. -/
theorem exists_isRead_target
    (found : move.target = some target) :
    ∃ row ∈ move.store.resources, row.id = target.resourceId ∧
      IsRead row (newResource move.rootPath
        (move.rootPath ++ (move.collPath ++ '/' :: move.segment)))
          move.newBind :=
  exists_isRead_member move.collLeads found move.isSegment move.newBindRead

theorem serialno_target
    (found : move.target = some target) :
    move.newBind.serialno = target.resourceId := by
  rcases exists_isRead_target found with ⟨row, -, isRow, isRead⟩
  exact isRead.serialno.trans isRow

theorem existsResource_target
    (found : move.target = some target) :
    existsResource move.newBind = true ↔
      move.store.typeOf target.resourceId ≠ some .lockNull := by
  rcases exists_isRead_target found with ⟨row, listed, isRow, isRead⟩
  have positive := resourceId_pos found
  rw [← isRow, typeOf_row listed]
  unfold existsResource
  rw [isRead.serialno, isRead.resourcetype, isRow, Bool.and_eq_true,
    bne_iff_ne, bne_iff_ne]
  exact and_iff_right (Int.ne_of_gt positive)

theorem existsResource_of_lockNull
    (found : move.target = some target)
    (lockNull : move.store.typeOf target.resourceId = some .lockNull) :
    existsResource move.newBind = false := by
  rw [← Bool.not_eq_true, existsResource_target found]
  exact not_not.mpr lockNull

/-- The name of a bind at the target is not cut. -/
theorem name_of_target
    {name : Text}
    (found : move.target = some target)
    (taken : DbmsProperties.varchar BridgeMkcol.maxNameLength move.segment =
      some name) :
    name = move.segment := by
  rcases Move.key_target found with ⟨listed, key⟩
  have isName : target.name = move.segment := congrArg Prod.snd key
  rw [← isName] at taken ⊢
  exact varchar_of_bound listed taken

/-- If the resource at the target is the moved one, it is read again. -/
theorem rebinds_of_same
    (found : move.target = some target)
    (same : target.resourceId = move.moved)
    (isMoved : IsMoved move moved)
    (reads : sabridgeGetProperty moved.toPropertyTables move.newBind =
      .ok read)
    (finishes : Finishes request moved result.store read result.newBind) :
    Rebinds request move result := by
  rcases exists_isRead_target found with ⟨row, listed, isRow, wasRead⟩
  have known : move.newBind.serialno ≠ 0 := by
    rw [wasRead.serialno, isRow]
    exact Int.ne_of_gt (resourceId_pos found)
  have isRead := isRead_of_serialno moved.resourcesPkey
    (isMoved.resources.symm ▸ listed) wasRead.serialno known reads
  exact rebinds_of_isMoved isMoved listed (isRow.trans same) isRead
    wasRead.uri finishes

/-- A lock-null resource is not overwritten: the unique key forbids it. -/
theorem rebinds_of_lockNull
    (found : move.target = some target)
    (lockNull : move.store.typeOf target.resourceId = some .lockNull)
    (runs : Runs request fuel move.store move.coll move.segment move.href
      move.newBind result parent read moved) :
    target = move.source ∧ Rebinds request move result := by
  rcases Move.key_target found with ⟨isBound, key⟩
  rcases moves_of_absent (existsResource_of_lockNull found lockNull) runs with
    ⟨name, taken, rows, resources, media, -⟩
  rw [name_of_target found taken] at rows
  have unique := moved.binds.collectionIdKey
  rw [rows, List.map_map] at unique
  have same : target = move.source := by
    by_contra other
    have notSource : target.key ≠ (move.parent, move.name) := by
      intro isSource
      exact other (eq_of_key isBound move.key_source.1
        (isSource.trans move.key_source.2.symm))
    apply other
    apply List.inj_on_of_nodup_map unique isBound move.key_source.1
    rw [Function.comp_apply, Function.comp_apply,
      rebound_of_other notSource, key,
      key_rebound_of_source move.key_source.2]
  exact ⟨same, rebinds_of_same found (congrArg Bind.resourceId same)
    (isMoved_of_map rows (fun _ _ => Iff.rfl) move.key_source.1 resources
      media) runs.reads runs.finishes⟩

/-! ### The target is overwritten -/

/-- The tables after the bind of the target has been given to the source. -/
structure Overwrites (request : Request) (move : Move) (target : Bind)
    (changed : RebindStore) : Prop where
  rows : ∃ base : List Bind, changed.binds.rows = base.map
      (rebound move.parent move.name move.coll move.segment request.now) ∧
    ∀ bind, bind ∈ base ↔ bind ∈ move.store.binds.rows ∧ bind ≠ target
  resources : changed.resources = move.store.resources
  media : changed.media = move.store.media
  cleanup : changed.cleanup = move.store.cleanup

theorem exists_overwrites
    (found : move.target = some target)
    (isThere : move.store.typeOf target.resourceId ≠ some .lockNull)
    (runs : Runs request fuel move.store move.coll move.segment move.href
      move.newBind result parent read moved) :
    ∃ changed, Overwrites request move target changed ∧
      sabridgeUnbindResource request fuel changed move.newBind =
        .ok moved := by
  rcases moveBind_ok (moveBind_of_runs runs) with
    ⟨-, changed, moves, unbinds⟩ | ⟨missing, -⟩
  · refine ⟨changed, ?_, unbinds⟩
    rcases dbmsRebindResource_ok moves with
      ⟨name, taken, rows, resources, media, cleanup⟩
    rw [name_of_target found taken, serialno_target found] at rows
    exact
      { rows := ⟨_, rows, fun _ => mem_dbmsDeleteBind found⟩
        resources := resources
        media := media
        cleanup := cleanup }
  · rw [(existsResource_target found).mpr isThere] at missing
    cases missing

theorem Overwrites.isMoved
    (found : move.target = some target)
    (other : target ≠ move.source)
    (overwrites : Overwrites request move target changed)
    (same : SameRows changed moved) : IsMoved move moved := by
  rcases overwrites.rows with ⟨base, rows, members⟩
  apply isMoved_of_map (same.binds.trans rows) ?_
    ((members _).mpr ⟨move.key_source.1, other.symm⟩)
    (same.resources.trans overwrites.resources)
    (same.media.trans overwrites.media)
  intro bind notTarget
  rw [members]
  exact and_iff_left fun isTarget =>
    notTarget (isTarget ▸ (Move.key_target found).2)

/-- A bind that is moved onto itself is deleted. -/
theorem Overwrites.unbound
    (found : move.target = some move.source)
    (overwrites : Overwrites request move move.source changed) :
    ∀ bind ∈ changed.binds.rows, bind.key ≠ (move.coll, move.segment) := by
  rcases overwrites.rows with ⟨base, rows, members⟩
  have key := (Move.key_target found).2
  intro bind member isTarget
  rw [rows] at member
  rcases List.mem_map.mp member with ⟨old, listed, rfl⟩
  rcases (members old).mp listed with ⟨isBound, other⟩
  have notSource : old.key ≠ (move.parent, move.name) := by
    intro isSource
    exact other (eq_of_key isBound move.key_source.1
      (isSource.trans move.key_source.2.symm))
  rw [rebound_of_other notSource] at isTarget
  exact other (eq_of_key isBound move.key_source.1
    (isTarget.trans key.symm))

/-- What is left of the ways to the moved resource. -/
theorem Overwrites.reaches_iff
    (found : move.target = some target)
    (same : target.resourceId = move.moved)
    (other : target ≠ move.source)
    (overwrites : Overwrites request move target changed) :
    (PathSearch.bindGraph changed.binds.rows).Reaches rootCollectionId
        move.moved ↔
      ((PathSearch.bindGraph move.store.binds.rows).restrict
        fun bind => bind ≠ move.source).Reaches rootCollectionId
          move.moved := by
  rcases overwrites.rows with ⟨base, rows, members⟩
  rcases Move.key_target found with ⟨isBound, key⟩
  have notSource {bind : Bind} (listed : bind ∈ move.store.binds.rows)
      (another : bind ≠ move.source) :
      bind.key ≠ (move.parent, move.name) := by
    intro isSource
    exact another (eq_of_key listed move.key_source.1
      (isSource.trans move.key_source.2.symm))
  constructor
  · intro reaches
    refine reaches.of_ends ?_
    intro bind member
    have listed : bind ∈ changed.binds.rows := member
    rw [rows] at listed
    rcases List.mem_map.mp listed with ⟨old, isOld, rfl⟩
    rcases (members old).mp isOld with ⟨wasBound, another⟩
    by_cases isSource : old = move.source
    · rcases isSource with rfl
      -- the bind of the target leads the same way
      have newKey : (rebound move.parent move.name move.coll move.segment
          request.now move.source).key = (move.coll, move.segment) :=
        key_rebound_of_source move.key_source.2
      refine ⟨target, ⟨isBound, other⟩, ?_, ?_⟩
      · exact (congrArg Prod.fst key).trans (congrArg Prod.fst newKey).symm
      · exact same.trans (resourceId_rebound _ _ _ _ _ _).symm
    · rw [rebound_of_other (notSource wasBound isSource)]
      exact ⟨old, ⟨wasBound, isSource⟩, rfl, rfl⟩
  · intro reaches
    refine reaches.of_ends ?_
    rintro bind ⟨listed, another⟩
    have isListed : bind ∈ move.store.binds.rows := listed
    by_cases isTarget : bind = target
    · rcases isTarget with rfl
      rcases exists_moved_bind request.now
        ((members _).mpr ⟨move.key_source.1, other.symm⟩) with
          ⟨newBind, isNew, newKey, newId⟩
      rw [← rows] at isNew
      refine ⟨newBind, isNew, ?_, newId.trans same.symm⟩
      exact (congrArg Prod.fst newKey).trans (congrArg Prod.fst key).symm
    · refine ⟨bind, ?_, rfl, rfl⟩
      show bind ∈ changed.binds.rows
      rw [rows]
      exact List.mem_map.mpr ⟨bind, (members bind).mpr ⟨isListed, isTarget⟩,
        rebound_of_other (notSource isListed another)⟩

theorem not_rebinds_of_gone
    (gone : move.moved ∉ moved.ids)
    (finishes : Finishes request moved result.store read result.newBind) :
    ¬ Rebinds request move result :=
  fun rebinds => gone (finishes.ids ▸ rebinds.record.mem_ids)

theorem rebinds_iff_of_overwrites
    (found : move.target = some target)
    (isThere : move.store.typeOf target.resourceId ≠ some .lockNull)
    (runs : Runs request fuel move.store move.coll move.segment move.href
      move.newBind result parent read moved) :
    Rebinds request move result ↔
      target.resourceId = move.moved ∧ target ≠ move.source ∧
        (request.useGc = true ∨
          ((PathSearch.bindGraph move.store.binds.rows).restrict
            fun bind => bind ≠ move.source).Reaches
              rootCollectionId move.moved) := by
  have serialno := serialno_target found
  have known : move.newBind.serialno ≠ 0 := by
    rw [serialno]
    exact Int.ne_of_gt (resourceId_pos found)
  rcases exists_overwrites found isThere runs with
    ⟨changed, overwrites, unbinds⟩
  by_cases same : target.resourceId = move.moved
  · rw [and_iff_right same]
    have isMovedId := serialno.trans same
    by_cases spared : IsSpared request changed move.newBind.serialno
    · have rows := sameRows_of_isSpared spared unbinds
      by_cases other : target = move.source
      · -- the bind that is to be moved has been deleted
        rcases other with rfl
        refine iff_of_false ?_ fun both => both.1 rfl
        apply not_rebinds_of_target ?_ ?_ runs.finishes
        · unfold RebindStore.ids
          rw [rows.resources, overwrites.resources]
          exact move.coll_mem_ids
        · rw [rows.binds]
          exact overwrites.unbound found
      · refine iff_of_true ?_ ⟨other, ?_⟩
        · exact rebinds_of_same found same
            (overwrites.isMoved found other rows) runs.reads runs.finishes
        · rw [IsSpared, isMovedId,
            overwrites.reaches_iff found same other] at spared
          exact spared
    · refine iff_of_false ?_ ?_
      · apply not_rebinds_of_gone ?_ runs.finishes
        rw [← isMovedId]
        exact notMem_ids_of_not_isSpared spared unbinds
      · rintro ⟨other, reaches⟩
        apply spared
        rw [IsSpared, isMovedId, overwrites.reaches_iff found same other]
        exact reaches
  · refine iff_of_false ?_ fun all => same all.1
    apply not_rebinds_of_serialno ?_ runs.finishes
    rw [serialno_of_read known runs.reads, serialno]
    exact same

end Targets

/-! ## When a move does what it is to do -/

/--
The record of a resource that is overwritten is read by the id it had, so that
a move onto another resource is never right.
-/
theorem rebinds_iff
    (request : Request)
    (fuel : Nat)
    (move : Move)
    (result : Rebound)
    (done : davReposRebindResource request fuel move.store move.coll
      move.segment move.href move.newBind = .ok result) :
    Rebinds request move result ↔ CanRebind request move := by
  rcases exists_runs done with ⟨parent, read, moved, runs⟩
  unfold CanRebind
  cases found : move.target with
  | none => exact rebinds_iff_of_missing found runs
  | some target =>
      by_cases lockNull : move.store.typeOf target.resourceId =
          some .lockNull
      · rcases rebinds_of_lockNull found lockNull runs with ⟨same, rebinds⟩
        have sameId : target.resourceId = move.moved :=
          congrArg Bind.resourceId same
        exact iff_of_true rebinds ⟨sameId, Or.inl (sameId ▸ lockNull)⟩
      · rw [rebinds_iff_of_overwrites found lockNull runs]
        refine and_congr_right fun same => ?_
        rw [← same]
        exact (or_iff_right lockNull).symm

/-! ## Two pages -/

section Examples

/-- A row of a resource. -/
def exampleRow (id : Id) (type : ResourceType) : ResourceRow where
  id := id
  uuid := []
  createdAt := []
  displayname := some []
  contentlanguage := []
  comment := none
  type := type
  ownerId := 3
  creatorId := 3
  limebarState := none
  lastmodified := none

/-- The pages `/a` and `/b`. -/
def twoPages : RebindStore where
  binds :=
    { rows := [⟨1, "a".toList, 2, 20, none⟩, ⟨2, "b".toList, 2, 21, none⟩]
      pkey := by decide
      collectionIdKey := by decide
      positive := by decide }
  resources := [exampleRow 2 .collection, exampleRow 20 .resource,
    exampleRow 21 .resource]
  redirectrefs := []
  collections := [⟨2, none⟩]
  media := [⟨20, 5, some "text/plain".toList, "a0".toList⟩,
    ⟨21, 7, some "text/plain".toList, "b1".toList⟩]
  principals := []
  versions := []
  vhrs := []
  vcrs := []
  resourcesPkey := by decide
  fkBindCollection := by decide
  fkBindResource := by decide
  nameLength := by decide
  acl := ⟨[⟨2, "2".toList⟩], by decide⟩
  cleanup := []

/-- A request, without garbage collection. -/
def exampleRequest : Request where
  now := "2007-01-01 00:00:00".toList
  useGc := false
  orders := ⟨Sql.RowOrder.stored _, Sql.RowOrder.stored _⟩
  libraries := VersionLinks.apacheLibraries
  mimeTypeExtMap := fun ext =>
    if ext = "html".toList then some "text/html".toList else none
  guessMimeType := fun _ => some "text/plain".toList
  generatePath := fun sha1 => .ok ("/files/".toList ++ sha1)

/-- The record of a URI. -/
def recordAt (store : RebindStore) (uri : Text) : DavReposResource :=
  match getResource store.toPropertyTables [] uri with
  | .ok record => record
  | .error _ => {}

theorem read_recordAt
    {store : RebindStore} {uri : Text}
    (isOk : (getResource store.toPropertyTables [] uri).isOk = true) :
    getResource store.toPropertyTables [] uri = .ok (recordAt store uri) := by
  unfold recordAt
  cases read : getResource store.toPropertyTables [] uri with
  | ok record => rfl
  | error err =>
      rw [read] at isOk
      cases isOk

theorem rootEnds_nil : ([] : Text).getLast? ≠ some '/' :=
  nofun

theorem isSegment_a : Segments.IsSegment '/' "a".toList :=
  ⟨by decide, by decide⟩

/-- A MOVE of `/a` to a name in the root collection. -/
def movePage (segment : Text)
    (isSegment : Segments.IsSegment '/' segment)
    (isOk : (getResource twoPages.toPropertyTables []
      ('/' :: segment)).isOk = true) : Move where
  store := twoPages
  rootPath := []
  collPath := []
  coll := 2
  segment := segment
  parentPath := []
  parent := 2
  name := "a".toList
  source := ⟨1, "a".toList, 2, 20, none⟩
  href := recordAt twoPages "/a".toList
  newBind := recordAt twoPages ('/' :: segment)
  rootEnds := rootEnds_nil
  isSegment := isSegment
  isName := isSegment_a
  collLeads := ⟨by decide, by decide, by decide⟩
  collType := by decide
  parentLeads := ⟨by decide, by decide, by decide⟩
  parentType := by decide
  isSource := by decide
  hrefRead := read_recordAt (by decide +kernel)
  newBindRead := read_recordAt isOk

/-- The two moves. -/
def moveToFree : Move :=
  movePage "c.html".toList ⟨by decide, by decide⟩ (by decide +kernel)

def moveOnto : Move :=
  movePage "b".toList ⟨by decide, by decide⟩ (by decide +kernel)

/-- What a move comes to. -/
def outcome (request : Request) (move : Move) : Option Rebound :=
  (davReposRebindResource request 9 move.store move.coll move.segment
    move.href move.newBind).toOption

theorem ok_of_toOption
    {α : Type} {call : Except Failure α} {value : α}
    (isSome : call.toOption = some value) : call = .ok value := by
  cases call with
  | error failure => cases isSome
  | ok other => exact congrArg Except.ok (Option.some.inj isSome)

theorem rebinds_moveToFree :
    ∃ result, outcome exampleRequest moveToFree = some result ∧
      Rebinds exampleRequest moveToFree result := by
  have isSome : (outcome exampleRequest moveToFree).isSome = true := by decide +kernel
  rcases Option.isSome_iff_exists.mp isSome with ⟨result, isOutcome⟩
  have free : CanRebind exampleRequest moveToFree := by
    have missing : moveToFree.target = none := by decide +kernel
    unfold CanRebind
    rw [missing]
    exact ⟨by decide +kernel, by decide +kernel⟩
  exact ⟨result, isOutcome, (rebinds_iff exampleRequest 9 moveToFree result
    (ok_of_toOption isOutcome)).mpr free⟩

/-- The record of the target is that of the page that has been deleted. -/
theorem not_rebinds_moveOnto :
    ∃ result, outcome exampleRequest moveOnto = some result ∧
      result.newBind.serialno = 21 ∧ result.store.ids = [2, 20] ∧
        ¬ Rebinds exampleRequest moveOnto result := by
  have left : (outcome exampleRequest moveOnto).map
      (fun result => (result.newBind.serialno, result.store.ids)) =
        some (21, [2, 20]) := by
    decide +kernel
  rcases Option.map_eq_some_iff.mp left with ⟨result, isOutcome, same⟩
  rcases Prod.mk.inj same with ⟨serialno, ids⟩
  refine ⟨result, isOutcome, serialno, ids, fun rebinds => ?_⟩
  have isMoved : result.newBind.serialno = 20 := rebinds.record.1
  rw [serialno] at isMoved
  revert isMoved
  decide

end Examples

end Limestone.MoveAsRebind
