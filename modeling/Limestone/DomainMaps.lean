import Limestone.BulkBinds
import Limestone.DbmsProperties
import Limestone.Library.LastSeen
import Limestone.Library.Sql

/-!
# Domain maps: `dbms_set_domain_map` and `dbms_get_domain_map`

The rows of a principal are deleted, and those of the new map are inserted by
one statement whose text holds all domains and paths.  A question mark in any
of them is a parameter that is never set.
-/

namespace Limestone.DomainMaps

open Library
open Library.SqlScan
open Library.SqlInsert
open DbmsBind
open DbmsDbd
open DbmsProperties (IsCut varchar varchar_cases varchar_length)

/-! ## The table -/

/-- A row of `user_domains`. -/
structure UserDomain where
  principalId : Id
  domain : Text
  path : Text
deriving DecidableEq, Repr

def UserDomain.key (row : UserDomain) : Id × Text :=
  (row.principalId, row.domain)

/-- The table, and the principals that its rows may refer to. -/
structure DomainTable where
  rows : List UserDomain
  principals : List Id
  principalIdDomainKey : (rows.map UserDomain.key).Nodup

/-- The rows of other principals. -/
def DomainTable.delete (table : DomainTable) (principalId : Id) :
    DomainTable where
  rows := table.rows.filter fun row => row.principalId != principalId
  principals := table.principals
  principalIdDomainKey :=
    table.principalIdDomainKey.sublist
      (List.filter_sublist.map UserDomain.key)

/--
More rows, if they keep the keys.  The foreign key is looked at when the
transaction ends, which then fails as a whole.
-/
def DomainTable.insert (table : DomainTable) (rows : List UserDomain) :
    Option DomainTable :=
  if fits : (∀ row ∈ rows, row.principalId ∈ table.principals) ∧
      ((table.rows ++ rows).map UserDomain.key).Nodup then
    some
      { rows := table.rows ++ rows
        principals := table.principals
        principalIdDomainKey := fits.2 }
  else none

/-! ## The statements -/

/-- A hash of texts. -/
abbrev DomainMap :=
  AList fun _ : Text => Text

/-- The order in which a hash is iterated over, which its contents decide. -/
structure HashOrder where
  arrange : List (Sigma fun _ : Text => Text) →
    List (Sigma fun _ : Text => Text)
  perm : ∀ entries, (arrange entries).Perm entries

/-- `(%ld, '%s', '%s')`. -/
def valueOf (principalId : Id) (entry : Sigma fun _ : Text => Text) : Text :=
  '(' :: (toString principalId).toList ++ ", '".toList ++
    dbmsEscape entry.1 ++ "', '".toList ++ dbmsEscape entry.2 ++ "')".toList

/-- `domain_map_to_values`; the values of no entries are NULL. -/
def domainMapToValues (order : HashOrder) (domainMap : DomainMap)
    (principalId : Id) : Option Text :=
  (order.arrange domainMap.entries).foldl
    (fun values entry =>
      match values with
      | none => some (valueOf principalId entry)
      | some values => some (values ++ [','] ++ valueOf principalId entry))
    none

def insertIntoUserDomains : Text :=
  ("INSERT INTO user_domains" ++ " (principal_id, domain, path)" ++
    " VALUES ").toList

/-- The text that is prepared; NULL is printed as `(null)`. -/
def insertQuery (values : Option Text) : Text :=
  insertIntoUserDomains ++ values.getD "(null)".toList ++ [' ']

/-- The values of the columns of a row. -/
def userDomain (columns : List Text) (row : List SqlValue) :
    Option UserDomain :=
  match (columns.zip row).lookup "principal_id".toList,
      (columns.zip row).lookup "domain".toList,
      (columns.zip row).lookup "path".toList with
  | some (.number principalId), some (.text domain), some (.text path) =>
      (varchar 255 domain).bind fun domain =>
        (varchar 255 path).map fun path => ⟨principalId, domain, path⟩
  | _, _, _ => none

def userDomains : Text :=
  "user_domains".toList

/-- The execution of a text as an `INSERT` into `user_domains`. -/
def executeText (table : DomainTable) (text : Text) : Option DomainTable :=
  (parseInsert false text).bind fun statement =>
    if statement.table = userDomains then
      (statement.rows.mapM (userDomain statement.columns)).bind table.insert
    else none

/-- The statements that change the table. -/
inductive Statement where
  | deleteDomains
  | insertDomains
deriving DecidableEq, Repr

/-! ## The functions -/

/-- `dbms_set_domain_map`. -/
def dbmsSetDomainMap (fails : Statement → Bool) (order : HashOrder)
    (table : DomainTable) (principalId : Id) (domainMap : Option DomainMap) :
    DomainTable × Option DavError :=
  if fails .deleteDomains then
    (table, some ⟨httpInternalServerError,
      "Failed DELETE in dbms_set_domain_map"⟩)
  else
    let table := table.delete principalId
    match domainMap with
    | none => (table, none)
    | some domainMap =>
        match escquery (dbmsPrepare (insertQuery
            (domainMapToValues order domainMap principalId))) with
        | none => (table, none)
        | some text =>
            match if fails .insertDomains then none
                else executeText table text with
            | none =>
                (table, some ⟨httpInternalServerError,
                  "Failed INSERT in dbms_set_domain_map 2"⟩)
            | some table => (table, none)

/-- `dbms_get_domain_map`, where the query is executed. -/
def dbmsGetDomainMap (order : Sql.RowOrder UserDomain) (table : DomainTable)
    (principalId : Id) : Option DomainMap :=
  let rows := order.arrange 0
    (table.rows.filter fun row => row.principalId == principalId)
  if rows.length = 0 then none
  else
    some (rows.foldl
      (fun domainMap row => LastSeen.write domainMap (row.domain, some row.path))
      ∅)

/-- A transaction with one call, which is rolled back if the call fails. -/
def inTransaction (call : DomainTable → DomainTable × Option DavError)
    (table : DomainTable) : DomainTable × Option DavError :=
  match call table with
  | (after, none) => (after, none)
  | (_, some err) => (table, some err)

/-! ## The text that is sent -/

variable {order : HashOrder} {rowOrder : Sql.RowOrder UserDomain}
  {fails : Statement → Bool} {table : DomainTable} {principalId : Id}
  {domainMap : DomainMap} {entry : Sigma fun _ : Text => Text}
  {entries : List (Sigma fun _ : Text => Text)}

/-- The row that is written for an entry. -/
def entryRow (principalId : Id) (entry : Sigma fun _ : Text => Text) :
    List SqlValue :=
  [.number principalId, .text entry.1, .text entry.2]

/-- The statement before the values of the first entry. -/
def insertHead : Text :=
  insertIntoUserDomains ++ ['(']

def insertColumns : List Text :=
  ["principal_id".toList, "domain".toList, "path".toList]

theorem valueOf_eq (principalId : Id) (entry : Sigma fun _ : Text => Text) :
    valueOf principalId entry =
      '(' :: rowText false [' '] (entryRow principalId entry) := by
  show _ = '(' :: (_ ++ _ ++ _ ++ (_ ++ _ ++ _ ++ (_ ++ _)))
  simp only [valueText, ← BulkBinds.dbmsEscape_eq_escape]
  simp [valueOf]

theorem foldl_values (values : Text) :
    entries.foldl
        (fun values entry =>
          match values with
          | none => some (valueOf principalId entry)
          | some values => some (values ++ [','] ++ valueOf principalId entry))
        (some values) =
      some (values ++ entries.flatMap fun entry =>
        ',' :: valueOf principalId entry) := by
  induction entries generalizing values with
  | nil => simp
  | cons entry entries induction =>
      rw [List.foldl_cons, induction, List.flatMap_cons]
      simp

/-- The text of a map with entries. -/
theorem insertQuery_eq (nonempty : domainMap.entries ≠ []) :
    insertQuery (domainMapToValues order domainMap principalId) =
      insertHead ++ rowsText false [' ']
        ((order.arrange domainMap.entries).map (entryRow principalId)) ++
          [' '] := by
  have filled : order.arrange domainMap.entries ≠ [] := by
    intro none
    have perm := order.perm domainMap.entries
    rw [none] at perm
    exact nonempty perm.symm.eq_nil
  have texts : (fun entry => ',' :: valueOf principalId entry) =
      fun entry => ',' :: '(' ::
        rowText false [' '] (entryRow principalId entry) := by
    funext entry
    rw [valueOf_eq]
  rw [domainMapToValues]
  cases arranged : order.arrange domainMap.entries with
  | nil => exact (filled arranged).elim
  | cons first rest =>
      have values : (first :: rest).foldl
          (fun values entry =>
            match values with
            | none => some (valueOf principalId entry)
            | some values =>
                some (values ++ [','] ++ valueOf principalId entry))
          none = _ :=
        foldl_values (valueOf principalId first)
      rw [values, insertQuery, texts, valueOf_eq, List.map_cons,
        rowsText_cons, List.flatMap_map, insertHead]
      simp only [Option.getD_some, List.append_assoc, List.cons_append,
        List.nil_append]

theorem scans_insertHead :
    Scans false insertHead
      (headTokens userDomains insertColumns) := by
  unfold Scans
  decide +kernel

theorem parseInsert_insertQuery (nonempty : domainMap.entries ≠ []) :
    parseInsert false
        (insertQuery (domainMapToValues order domainMap principalId)) =
      some
        { table := userDomains
          columns := insertColumns
          rows := (order.arrange domainMap.entries).map
            (entryRow principalId) } := by
  have filled : ∀ row ∈ (order.arrange domainMap.entries).map
      (entryRow principalId), row ≠ [] := by
    intro row member
    rcases List.mem_map.mp member with ⟨entry, -, rfl⟩
    exact List.cons_ne_nil _ _
  have scans := (scans_insertHead.append
    (scans_rowsText BulkBinds.scans_blank filled)).append
      BulkBinds.scans_blank
  rw [List.append_nil] at scans
  rw [insertQuery_eq nonempty]
  apply parseInsert_of_scans scans (List.cons_ne_nil _ _)
  · intro none
    have perm := order.perm domainMap.entries
    rw [List.map_eq_nil_iff.mp none] at perm
    exact nonempty perm.symm.eq_nil
  · exact filled

/-- A domain or a path holds the character that stands for a parameter. -/
def IsMarked (domainMap : DomainMap) : Prop :=
  ∃ entry ∈ domainMap.entries, '?' ∈ entry.1 ∨ '?' ∈ entry.2

theorem mem_valueOf :
    '?' ∈ valueOf principalId entry ↔ '?' ∈ entry.1 ∨ '?' ∈ entry.2 := by
  have number : '?' ∉ (toString principalId).toList := fun member =>
    (BulkBinds.plain_toString principalId _ member).small.2.2.2 rfl
  simp only [valueOf, List.mem_append, List.mem_cons, number, mem_dbmsEscape]
  simp

theorem mem_insertQuery (nonempty : domainMap.entries ≠ []) :
    '?' ∈ insertQuery (domainMapToValues order domainMap principalId) ↔
      IsMarked domainMap := by
  have head : '?' ∉ insertHead := by
    decide +kernel
  have row : ∀ entry, '?' ∈ rowText false [' '] (entryRow principalId entry) ↔
      '?' ∈ entry.1 ∨ '?' ∈ entry.2 := by
    intro entry
    rw [← @mem_valueOf principalId entry, valueOf_eq]
    simp
  have listed : ∀ entry, entry ∈ order.arrange domainMap.entries ↔
      entry ∈ domainMap.entries := fun entry =>
    (order.perm domainMap.entries).mem_iff
  rw [insertQuery_eq nonempty, List.mem_append, List.mem_append,
    mem_rowsText (by decide) (by decide), IsMarked]
  simp [head, row, listed]

/-! ## The rows that are stored -/

/-- The row of an entry, if the columns take it. -/
def storedRow (principalId : Id) (entry : Sigma fun _ : Text => Text) :
    Option UserDomain :=
  (varchar 255 entry.1).bind fun domain =>
    (varchar 255 entry.2).map fun path => ⟨principalId, domain, path⟩

theorem userDomain_entryRow
    (principalId : Id) (entry : Sigma fun _ : Text => Text) :
    userDomain insertColumns (entryRow principalId entry) =
      storedRow principalId entry := by
  have principal : (insertColumns.zip (entryRow principalId entry)).lookup
      "principal_id".toList = some (.number principalId) :=
    rfl
  have domain : (insertColumns.zip (entryRow principalId entry)).lookup
      "domain".toList = some (.text entry.1) :=
    rfl
  have path : (insertColumns.zip (entryRow principalId entry)).lookup
      "path".toList = some (.text entry.2) :=
    rfl
  rw [userDomain, principal, domain, path]
  rfl

/-- Of a text what the columns keep. -/
def kept (text : Text) : Text :=
  (varchar 255 text).getD []

/-- The row of an entry that the columns take. -/
def keptRow (principalId : Id) (entry : Sigma fun _ : Text => Text) :
    UserDomain :=
  ⟨principalId, kept entry.1, kept entry.2⟩

/-- The columns take the entries, and their keys stay different. -/
structure Accepted (table : DomainTable) (principalId : Id)
    (domainMap : DomainMap) : Prop where
  principal : principalId ∈ table.principals
  fits : ∀ entry ∈ domainMap.entries,
    (varchar 255 entry.1).isSome ∧ (varchar 255 entry.2).isSome
  distinct : (domainMap.entries.map fun entry => kept entry.1).Nodup

theorem storedRow_of_fits
    (domain : (varchar 255 entry.1).isSome)
    (path : (varchar 255 entry.2).isSome) :
    storedRow principalId entry = some (keptRow principalId entry) := by
  rcases Option.isSome_iff_exists.mp domain with ⟨keptDomain, domainEq⟩
  rcases Option.isSome_iff_exists.mp path with ⟨keptPath, pathEq⟩
  rw [storedRow, keptRow, kept, kept, domainEq, pathEq]
  rfl

theorem storedRow_eq_none
    (unfit : ¬ ((varchar 255 entry.1).isSome ∧
      (varchar 255 entry.2).isSome)) :
    storedRow principalId entry = none := by
  rw [storedRow]
  cases domain : varchar 255 entry.1 with
  | none => rfl
  | some keptDomain =>
      cases path : varchar 255 entry.2 with
      | none => rfl
      | some keptPath =>
          rw [domain, path] at unfit
          exact (unfit ⟨rfl, rfl⟩).elim

/-- The rows that are inserted for a map. -/
def keptRows (order : HashOrder) (principalId : Id) (domainMap : DomainMap) :
    List UserDomain :=
  (order.arrange domainMap.entries).map (keptRow principalId)

theorem perm_keptRows :
    (keptRows order principalId domainMap).Perm
      (domainMap.entries.map (keptRow principalId)) :=
  (order.perm domainMap.entries).map _

/-- After the deletion only the domains of the map can clash. -/
theorem nodup_keys_iff :
    (((table.delete principalId).rows ++
        keptRows order principalId domainMap).map UserDomain.key).Nodup ↔
      (domainMap.entries.map fun entry => kept entry.1).Nodup := by
  have keys : ((domainMap.entries.map (keptRow principalId)).map
      UserDomain.key).Nodup ↔
        (domainMap.entries.map fun entry => kept entry.1).Nodup := by
    have split : (domainMap.entries.map (keptRow principalId)).map
        UserDomain.key =
          (domainMap.entries.map fun entry => kept entry.1).map
            fun domain => (principalId, domain) := by
      rw [List.map_map, List.map_map]
      rfl
    rw [split, List.nodup_map_iff]
    intro first second same
    exact (Prod.mk.inj same).2
  have disjoint : ∀ key ∈ (table.delete principalId).rows.map UserDomain.key,
      ∀ other ∈ (keptRows order principalId domainMap).map UserDomain.key,
        key ≠ other := by
    intro key member other listed
    rcases List.mem_map.mp member with ⟨row, inTable, rfl⟩
    rcases List.mem_map.mp listed with ⟨_, inMap, rfl⟩
    rcases List.mem_map.mp inMap with ⟨entry, -, rfl⟩
    have foreign : row.principalId ≠ principalId :=
      bne_iff_ne.mp (List.mem_filter.mp inTable).2
    intro same
    exact foreign (Prod.mk.inj same).1
  rw [List.map_append, List.nodup_append, ← keys,
    (perm_keptRows.map UserDomain.key).nodup_iff]
  exact ⟨fun all => all.2.1, fun distinct =>
    ⟨(table.delete principalId).principalIdDomainKey, distinct, disjoint⟩⟩

/-- The text is executed as the insertion of the rows. -/
theorem executeText_insertQuery (nonempty : domainMap.entries ≠ []) :
    executeText table
        (insertQuery (domainMapToValues order domainMap principalId)) =
      ((order.arrange domainMap.entries).mapM (storedRow principalId)).bind
        table.insert := by
  have rows : ((order.arrange domainMap.entries).map
      (entryRow principalId)).mapM (userDomain insertColumns) =
        (order.arrange domainMap.entries).mapM (storedRow principalId) := by
    have each : userDomain insertColumns ∘ entryRow principalId =
        storedRow principalId :=
      funext (userDomain_entryRow principalId)
    rw [List.mapM_map, each]
  rw [executeText, parseInsert_insertQuery nonempty, Option.bind_some,
    if_pos rfl, rows]

/-- The insertion adds the rows of an accepted map. -/
theorem executeText_of_accepted
    (nonempty : domainMap.entries ≠ [])
    (accepted : Accepted table principalId domainMap) :
    ∃ after, executeText (table.delete principalId)
        (insertQuery (domainMapToValues order domainMap principalId)) =
          some after ∧
      after.rows = (table.delete principalId).rows ++
        keptRows order principalId domainMap := by
  have stored : (order.arrange domainMap.entries).mapM
      (storedRow principalId) = some (keptRows order principalId domainMap) := by
    apply Sql.mapM_eq_some
    intro entry member
    have fits := accepted.fits entry
      ((order.perm domainMap.entries).mem_iff.mp member)
    exact storedRow_of_fits fits.1 fits.2
  have referenced : ∀ row ∈ keptRows order principalId domainMap,
      row.principalId ∈ (table.delete principalId).principals := by
    intro row member
    rcases List.mem_map.mp member with ⟨entry, -, rfl⟩
    exact accepted.principal
  rw [executeText_insertQuery nonempty, stored, Option.bind_some,
    DomainTable.insert,
    dif_pos ⟨referenced, nodup_keys_iff.mpr accepted.distinct⟩]
  exact ⟨_, rfl, rfl⟩

theorem executeText_of_not_accepted
    (nonempty : domainMap.entries ≠ [])
    (refused : ¬ Accepted table principalId domainMap) :
    executeText (table.delete principalId)
        (insertQuery (domainMapToValues order domainMap principalId)) =
      none := by
  rw [executeText_insertQuery nonempty]
  by_cases fits : ∀ entry ∈ domainMap.entries,
      (varchar 255 entry.1).isSome ∧ (varchar 255 entry.2).isSome
  · have stored : (order.arrange domainMap.entries).mapM
        (storedRow principalId) =
          some (keptRows order principalId domainMap) := by
      apply Sql.mapM_eq_some
      intro entry member
      have both := fits entry
        ((order.perm domainMap.entries).mem_iff.mp member)
      exact storedRow_of_fits both.1 both.2
    rw [stored, Option.bind_some, DomainTable.insert, dif_neg]
    rintro ⟨referenced, distinct⟩
    apply refused
    refine ⟨?_, fits, nodup_keys_iff.mp distinct⟩
    rcases List.exists_mem_of_ne_nil _ nonempty with ⟨entry, member⟩
    have listed : keptRow principalId entry ∈
        keptRows order principalId domainMap :=
      perm_keptRows.mem_iff.mpr (List.mem_map_of_mem member)
    exact referenced _ listed
  · rw [not_forall] at fits
    rcases fits with ⟨entry, unfit⟩
    rw [Classical.not_imp] at unfit
    have failed : (order.arrange domainMap.entries).mapM
        (storedRow principalId) = none :=
      Sql.mapM_eq_none
        ((order.perm domainMap.entries).mem_iff.mpr unfit.1)
        (storedRow_eq_none unfit.2)
    rw [failed]
    rfl

/-! ## Reading a map -/

/-- The path of a domain. -/
def DomainMap.path (domainMap : DomainMap) (domain : Text) : Option Text :=
  domainMap.lookup domain

theorem path_eq_some {domain path : Text} :
    domainMap.path domain = some path ↔
      Sigma.mk domain path ∈ domainMap.entries :=
  AList.mem_lookup_iff

/-- Of a principal without rows no map is returned. -/
theorem dbmsGetDomainMap_of_no_rows
    (none_ : ∀ row ∈ table.rows, row.principalId ≠ principalId) :
    dbmsGetDomainMap rowOrder table principalId = none := by
  have empty : (table.rows.filter fun row =>
      row.principalId == principalId) = [] := by
    apply List.filter_eq_nil_iff.mpr
    intro row member
    simpa using none_ row member
  have arranged := rowOrder.perm 0 ([] : List UserDomain)
  rw [dbmsGetDomainMap, empty, List.length_eq_zero_iff.mpr arranged.eq_nil,
    if_pos rfl]

/-- The rows of a principal, whatever their order, make up its map. -/
theorem dbmsGetDomainMap_of_rows
    {row : UserDomain}
    (member : row ∈ table.rows)
    (own : row.principalId = principalId) :
    ∃ returned, dbmsGetDomainMap rowOrder table principalId = some returned ∧
      ∀ domain path, returned.path domain = some path ↔
        ⟨principalId, domain, path⟩ ∈ table.rows := by
  have perm := rowOrder.perm 0
    (table.rows.filter fun row => row.principalId == principalId)
  have listed : ∀ row, row ∈ rowOrder.arrange 0
      (table.rows.filter fun row => row.principalId == principalId) ↔
        row ∈ table.rows ∧ row.principalId = principalId := by
    intro row
    rw [perm.mem_iff, List.mem_filter, beq_iff_eq]
  have distinct : (((rowOrder.arrange 0 (table.rows.filter fun row =>
      row.principalId == principalId)).map fun row =>
        (row.domain, row.path)).map Prod.fst).Nodup := by
    have keys := table.principalIdDomainKey.sublist
      ((List.filter_sublist (p := fun row =>
        row.principalId == principalId)).map UserDomain.key)
    rw [← (perm.map UserDomain.key).nodup_iff] at keys
    have split : (rowOrder.arrange 0 (table.rows.filter fun row =>
        row.principalId == principalId)).map UserDomain.key =
          ((rowOrder.arrange 0 (table.rows.filter fun row =>
            row.principalId == principalId)).map UserDomain.domain).map
              fun domain => (principalId, domain) := by
      rw [List.map_map]
      apply List.map_congr_left
      intro row member
      rw [UserDomain.key, ((listed row).mp member).2]
      rfl
    rw [split] at keys
    rw [List.map_map]
    exact keys.of_map _
  rw [dbmsGetDomainMap, if_neg]
  · refine ⟨_, rfl, fun domain path => ?_⟩
    have found := @LastSeen.lookup_foldl_write_nodup _ _ domain _ _ path
      distinct
    rw [List.map_map, List.foldl_map] at found
    rw [DomainMap.path]
    refine Iff.trans found ?_
    rw [List.mem_map]
    constructor
    · rintro ⟨other, member, same⟩
      rcases (listed other).mp member with ⟨inTable, here⟩
      rcases other with ⟨otherId, otherDomain, otherPath⟩
      rcases Prod.mk.inj same with ⟨rfl, rfl⟩
      rcases here with rfl
      exact inTable
    · intro inTable
      exact ⟨_, (listed _).mpr ⟨inTable, rfl⟩, rfl⟩
  · intro empty
    have none_ := List.length_eq_zero_iff.mp empty
    have here := (listed row).mpr ⟨member, own⟩
    rw [none_] at here
    cases here

/-! ## What the setter does -/

/--
After a success the map is the one that was set, and the maps of other
principals are as they were; a failure leaves nothing behind in a transaction
that is rolled back.
-/
structure SetsMap (fails : Statement → Bool) (order : HashOrder)
    (rowOrder : Sql.RowOrder UserDomain) (table : DomainTable)
    (principalId : Id) (domainMap : Option DomainMap) : Prop where
  returned :
    (dbmsSetDomainMap fails order table principalId domainMap).2 = none →
    (dbmsGetDomainMap rowOrder
        (dbmsSetDomainMap fails order table principalId domainMap).1
        principalId).map DomainMap.path =
      domainMap.map DomainMap.path
  others :
    (dbmsSetDomainMap fails order table principalId domainMap).2 = none →
    ∀ other, other ≠ principalId →
      dbmsGetDomainMap rowOrder
          (dbmsSetDomainMap fails order table principalId domainMap).1 other =
        dbmsGetDomainMap rowOrder table other
  rolledBack :
    (dbmsSetDomainMap fails order table principalId domainMap).2 ≠ none →
    dbmsGetDomainMap rowOrder
        (inTransaction (fun table =>
          dbmsSetDomainMap fails order table principalId domainMap) table).1
        principalId =
      dbmsGetDomainMap rowOrder table principalId

/-- A map of which nothing is lost: no mark, and nothing that is cut. -/
def Keeps (fails : Statement → Bool) (table : DomainTable) (principalId : Id)
    (domainMap : DomainMap) : Prop :=
  fails .deleteDomains = true ∨
    ¬ IsMarked domainMap ∧
      (fails .insertDomains = true ∨ ¬ Accepted table principalId domainMap ∨
        ∀ entry ∈ domainMap.entries,
          ¬ IsCut 255 entry.1 ∧ ¬ IsCut 255 entry.2)

/-- The deletion leaves the rows of other principals. -/
theorem dbmsGetDomainMap_of_delete
    {after : DomainTable} {rows : List UserDomain} {other : Id}
    (added : after.rows = (table.delete principalId).rows ++ rows)
    (own : ∀ row ∈ rows, row.principalId = principalId)
    (foreign : other ≠ principalId) :
    dbmsGetDomainMap rowOrder after other =
      dbmsGetDomainMap rowOrder table other := by
  have same : (after.rows.filter fun row => row.principalId == other) =
      table.rows.filter fun row => row.principalId == other := by
    have none_ : (rows.filter fun row => row.principalId == other) = [] := by
      apply List.filter_eq_nil_iff.mpr
      intro row member equal
      rw [own row member] at equal
      exact foreign (beq_iff_eq.mp equal).symm
    have condition : ∀ row : UserDomain,
        (row.principalId == other && row.principalId != principalId) =
          (row.principalId == other) := by
      intro row
      by_cases here : row.principalId = other
      · simp [here, foreign]
      · simp [here]
    rw [added, List.filter_append, none_, List.append_nil,
      DomainTable.delete, List.filter_filter]
    simp only [condition]
  rw [dbmsGetDomainMap, same]
  rfl

theorem notMem_delete {row : UserDomain}
    (member : row ∈ (table.delete principalId).rows) :
    row.principalId ≠ principalId :=
  bne_iff_ne.mp (List.mem_filter.mp member).2

/-- What is read of the rows of an accepted map. -/
theorem dbmsGetDomainMap_of_keptRows
    {after : DomainTable}
    (nonempty : domainMap.entries ≠ [])
    (added : after.rows = (table.delete principalId).rows ++
      keptRows order principalId domainMap) :
    ∃ returned, dbmsGetDomainMap rowOrder after principalId =
        some returned ∧
      ∀ domain path, returned.path domain = some path ↔
        ∃ entry ∈ domainMap.entries,
          kept entry.1 = domain ∧ kept entry.2 = path := by
  have listed : ∀ row, row ∈ keptRows order principalId domainMap ↔
      ∃ entry ∈ domainMap.entries, keptRow principalId entry = row := by
    intro row
    rw [perm_keptRows.mem_iff, List.mem_map]
  rcases List.exists_mem_of_ne_nil _ nonempty with ⟨first, member⟩
  have inTable : keptRow principalId first ∈ after.rows := by
    rw [added]
    exact List.mem_append_right _ ((listed _).mpr ⟨first, member, rfl⟩)
  rcases @dbmsGetDomainMap_of_rows rowOrder after principalId _ inTable rfl
    with ⟨returned, read, paths⟩
  refine ⟨returned, read, fun domain path => ?_⟩
  rw [paths, added, List.mem_append, listed]
  constructor
  · rintro (old | ⟨entry, entryMember, same⟩)
    · exact (notMem_delete old rfl).elim
    · rcases UserDomain.mk.inj same with ⟨-, sameDomain, samePath⟩
      exact ⟨entry, entryMember, sameDomain, samePath⟩
  · rintro ⟨entry, entryMember, rfl, rfl⟩
    exact Or.inr ⟨entry, entryMember, rfl⟩

theorem length_kept {text : Text}
    (fits : (varchar 255 text).isSome) :
    (kept text).length ≤ 255 := by
  rcases Option.isSome_iff_exists.mp fits with ⟨value, taken⟩
  rw [kept, taken]
  exact varchar_length taken

theorem kept_eq_self {text : Text}
    (fits : (varchar 255 text).isSome)
    (whole : ¬ IsCut 255 text) :
    kept text = text := by
  rcases varchar_cases 255 text with ⟨taken, -⟩ | ⟨refused, -⟩ |
    ⟨_, -, -, -, cut⟩
  · rw [kept, taken]
    rfl
  · rw [refused] at fits
    cases fits
  · exact (whole cut).elim

/-- The accepted map is read back iff nothing of it was cut. -/
theorem path_eq_iff
    {returned : DomainMap}
    (accepted : Accepted table principalId domainMap)
    (paths : ∀ domain path, returned.path domain = some path ↔
      ∃ entry ∈ domainMap.entries,
        kept entry.1 = domain ∧ kept entry.2 = path) :
    returned.path = domainMap.path ↔
      ∀ entry ∈ domainMap.entries,
        ¬ IsCut 255 entry.1 ∧ ¬ IsCut 255 entry.2 := by
  constructor
  · intro same entry member
    have read : returned.path entry.1 = some entry.2 := by
      rw [same]
      exact path_eq_some.mpr member
    rcases (paths entry.1 entry.2).mp read with
      ⟨other, otherMember, domain, path⟩
    have fits := accepted.fits other otherMember
    have domainLength := length_kept fits.1
    have pathLength := length_kept fits.2
    rw [domain] at domainLength
    rw [path] at pathLength
    exact ⟨fun cut => absurd cut.1 (by omega),
      fun cut => absurd cut.1 (by omega)⟩
  · intro whole
    have unchanged : ∀ entry ∈ domainMap.entries,
        kept entry.1 = entry.1 ∧ kept entry.2 = entry.2 := by
      intro entry member
      have fits := accepted.fits entry member
      exact ⟨kept_eq_self fits.1 (whole entry member).1,
        kept_eq_self fits.2 (whole entry member).2⟩
    funext domain
    apply Option.ext
    intro path
    rw [paths, path_eq_some]
    constructor
    · rintro ⟨entry, member, rfl, rfl⟩
      rw [(unchanged entry member).1, (unchanged entry member).2]
      exact member
    · intro member
      exact ⟨_, member, unchanged _ member⟩

/-- The deletion alone, as the whole of a call. -/
theorem dbmsGetDomainMap_delete :
    dbmsGetDomainMap rowOrder (table.delete principalId) principalId =
      none :=
  dbmsGetDomainMap_of_no_rows fun _ member => notMem_delete member

theorem others_delete :
    ∀ other, other ≠ principalId →
      dbmsGetDomainMap rowOrder (table.delete principalId) other =
        dbmsGetDomainMap rowOrder table other := by
  intro other foreign
  apply dbmsGetDomainMap_of_delete (List.append_nil _).symm
  · exact fun row member => (List.not_mem_nil member).elim
  · exact foreign

section Cases

variable {map : Option DomainMap}

/-- A call that fails. -/
theorem setsMap_of_error
    (failed : (dbmsSetDomainMap fails order table principalId map).2 ≠ none) :
    SetsMap fails order rowOrder table principalId map := by
  refine ⟨fun ok => (failed ok).elim, fun ok => (failed ok).elim, fun _ => ?_⟩
  rw [inTransaction]
  cases result : dbmsSetDomainMap fails order table principalId map with
  | mk after err =>
      rw [result] at failed
      cases err with
      | none => exact (failed rfl).elim
      | some err => rfl

/-- A call that succeeds. -/
theorem setsMap_iff_of_success
    {after : DomainTable}
    (done : dbmsSetDomainMap fails order table principalId map =
      (after, none))
    (others : ∀ other, other ≠ principalId →
      dbmsGetDomainMap rowOrder after other =
        dbmsGetDomainMap rowOrder table other) :
    SetsMap fails order rowOrder table principalId map ↔
      (dbmsGetDomainMap rowOrder after principalId).map DomainMap.path =
        map.map DomainMap.path := by
  constructor
  · intro sets
    have returned := sets.returned
    rw [done] at returned
    exact returned rfl
  · intro returned
    constructor
    case returned =>
      intro _
      rw [done]
      exact returned
    case others =>
      intro _
      rw [done]
      exact others
    case rolledBack =>
      intro failed
      rw [done] at failed
      exact (failed rfl).elim

theorem dbmsSetDomainMap_of_marked
    (deleted : fails .deleteDomains = false)
    (filled : domainMap.entries ≠ [])
    (marked : IsMarked domainMap) :
    dbmsSetDomainMap fails order table principalId (some domainMap) =
      (table.delete principalId, none) := by
  have unsent : escquery (dbmsPrepare (insertQuery
      (domainMapToValues order domainMap principalId))) = none := by
    rw [escquery_dbmsPrepare, if_pos ((mem_insertQuery filled).mpr marked)]
  rw [dbmsSetDomainMap, deleted]
  simp only [Bool.false_eq_true, if_false, unsent]

theorem dbmsSetDomainMap_of_unmarked
    (deleted : fails .deleteDomains = false)
    (filled : domainMap.entries ≠ [])
    (unmarked : ¬ IsMarked domainMap) :
    dbmsSetDomainMap fails order table principalId (some domainMap) =
      match if fails .insertDomains then none
        else executeText (table.delete principalId) (insertQuery
          (domainMapToValues order domainMap principalId)) with
      | none =>
          (table.delete principalId, some ⟨httpInternalServerError,
            "Failed INSERT in dbms_set_domain_map 2"⟩)
      | some table => (table, none) := by
  have sent : escquery (dbmsPrepare (insertQuery
      (domainMapToValues order domainMap principalId))) =
        some (insertQuery (domainMapToValues order domainMap principalId)) := by
    rw [escquery_dbmsPrepare,
      if_neg (mt (mem_insertQuery filled).mp unmarked)]
  rw [dbmsSetDomainMap, deleted]
  simp only [Bool.false_eq_true, if_false, sent]

/-- An insertion that is refused. -/
theorem dbmsSetDomainMap_of_refused
    (deleted : fails .deleteDomains = false)
    (filled : domainMap.entries ≠ [])
    (unmarked : ¬ IsMarked domainMap)
    (refused : fails .insertDomains = true ∨
      ¬ Accepted table principalId domainMap) :
    (dbmsSetDomainMap fails order table principalId (some domainMap)).2 ≠
      none := by
  have unexecuted : (if fails .insertDomains then none
      else executeText (table.delete principalId) (insertQuery
        (domainMapToValues order domainMap principalId))) = none := by
    split
    case isTrue => rfl
    case isFalse inserted =>
      exact executeText_of_not_accepted filled
        (refused.resolve_left inserted)
  rw [dbmsSetDomainMap_of_unmarked deleted filled unmarked, unexecuted]
  exact Option.some_ne_none _

end Cases

/--
The map that is set is the one that is read, and the other rows stay, iff
no domain or path has a question mark and the columns cut none of them, unless
a statement fails.
-/
theorem dbmsSetDomainMap_setsMap_iff
    (fails : Statement → Bool) (order : HashOrder)
    (rowOrder : Sql.RowOrder UserDomain) (table : DomainTable)
    (principalId : Id) (map : Option DomainMap)
    (nonempty : ∀ domainMap, map = some domainMap → domainMap.entries ≠ []) :
    SetsMap fails order rowOrder table principalId map ↔
      ∀ domainMap, map = some domainMap →
        Keeps fails table principalId domainMap := by
  by_cases undeleted : fails .deleteDomains = true
  · have failed : (dbmsSetDomainMap fails order table principalId map).2 ≠
        none := by
      rw [dbmsSetDomainMap, if_pos undeleted]
      exact Option.some_ne_none _
    exact ⟨fun _ _ _ => Or.inl undeleted, fun _ => setsMap_of_error failed⟩
  have deleted : fails .deleteDomains = false :=
    Bool.eq_false_iff.mpr undeleted
  cases map with
  | none =>
      have done : dbmsSetDomainMap fails order table principalId none =
          (table.delete principalId, none) := by
        rw [dbmsSetDomainMap, deleted, if_neg Bool.false_ne_true]
      rw [setsMap_iff_of_success done others_delete, dbmsGetDomainMap_delete]
      exact ⟨fun _ _ never => (by cases never), fun _ => rfl⟩
  | some domainMap =>
      have filled := nonempty domainMap rfl
      have one : (∀ other, some domainMap = some other →
          Keeps fails table principalId other) ↔
            Keeps fails table principalId domainMap := by
        constructor
        · exact fun keeps => keeps domainMap rfl
        · rintro keeps _ same
          rcases Option.some.inj same with rfl
          exact keeps
      rw [one, Keeps, or_iff_right undeleted]
      by_cases marked : IsMarked domainMap
      · rw [setsMap_iff_of_success
          (dbmsSetDomainMap_of_marked deleted filled marked) others_delete,
          dbmsGetDomainMap_delete]
        exact ⟨fun never => (by cases never),
          fun keeps => (keeps.1 marked).elim⟩
      rw [and_iff_right marked]
      by_cases refused : fails .insertDomains = true ∨
          ¬ Accepted table principalId domainMap
      · have failed := @dbmsSetDomainMap_of_refused order fails table
          principalId domainMap deleted filled marked refused
        exact ⟨fun _ => refused.imp_right Or.inl,
          fun _ => setsMap_of_error failed⟩
      rw [not_or, not_not, Bool.not_eq_true] at refused
      rcases refused with ⟨inserted, accepted⟩
      rcases @executeText_of_accepted order table principalId domainMap
        filled accepted with ⟨after, executed, added⟩
      have done : dbmsSetDomainMap fails order table principalId
          (some domainMap) = (after, none) := by
        rw [dbmsSetDomainMap_of_unmarked deleted filled marked, inserted,
          if_neg Bool.false_ne_true, executed]
      have others : ∀ other, other ≠ principalId →
          dbmsGetDomainMap rowOrder after other =
            dbmsGetDomainMap rowOrder table other := by
        intro other foreign
        apply dbmsGetDomainMap_of_delete added
        · intro row member
          rcases List.mem_map.mp member with ⟨entry, -, rfl⟩
          rfl
        · exact foreign
      rcases @dbmsGetDomainMap_of_keptRows order rowOrder table
        principalId domainMap after filled added with
        ⟨returned, read, paths⟩
      rw [setsMap_iff_of_success done others, read, Option.map_some,
        Option.map_some, Option.some_inj, path_eq_iff accepted paths]
      constructor
      · exact fun whole => Or.inr (Or.inr whole)
      · rintro (failed | refused | whole)
        · exact absurd failed (Bool.eq_false_iff.mp inserted)
        · exact (refused accepted).elim
        · exact whole

/-- Entries in the order in which they were put into the hash. -/
def hashOrder : HashOrder where
  arrange entries := entries
  perm entries := List.Perm.refl entries

theorem noDomains_key :
    (([] : List UserDomain).map UserDomain.key).Nodup :=
  List.nodup_nil

/-- One principal that has no domains. -/
def noDomains : DomainTable where
  rows := []
  principals := [7]
  principalIdDomainKey := noDomains_key

/-- A map with one entry. -/
def oneDomain (domain path : Text) : DomainMap :=
  AList.singleton domain path

theorem oneDomain_filled {domain path : Text} :
    ∀ domainMap, some (oneDomain domain path) = some domainMap →
      domainMap.entries ≠ [] := by
  rintro _ same
  rcases Option.some.inj same with rfl
  exact List.cons_ne_nil _ _

theorem dbmsSetDomainMap_setsMap_example :
    SetsMap (fun _ => false) hashOrder (Sql.RowOrder.stored UserDomain)
        noDomains 7 (some (oneDomain "o'neil.org".toList "/home".toList)) ↔
      ∀ domainMap,
        some (oneDomain "o'neil.org".toList "/home".toList) =
          some domainMap →
        Keeps (fun _ => false) noDomains 7 domainMap :=
  dbmsSetDomainMap_setsMap_iff (fun _ => false) hashOrder
    (Sql.RowOrder.stored UserDomain) noDomains 7
    (some (oneDomain "o'neil.org".toList "/home".toList)) oneDomain_filled

/-- A path with a question mark: the map is reported as set and is lost. -/
theorem not_dbmsSetDomainMap_setsMap :
    ¬ ∀ (fails : Statement → Bool) (order : HashOrder)
        (rowOrder : Sql.RowOrder UserDomain) (table : DomainTable)
        (principalId : Id) (map : Option DomainMap),
      (∀ domainMap, map = some domainMap → domainMap.entries ≠ []) →
      SetsMap fails order rowOrder table principalId map := by
  intro setsMap
  have sets := setsMap (fun _ => false) hashOrder
    (Sql.RowOrder.stored UserDomain) noDomains 7
    (some (oneDomain "a.org".toList "/what?".toList)) oneDomain_filled
  have marked : IsMarked (oneDomain "a.org".toList "/what?".toList) :=
    ⟨_, List.mem_cons_self, Or.inr (by decide)⟩
  have filled := oneDomain_filled _
    (rfl : some (oneDomain "a.org".toList "/what?".toList) = some _)
  have done : dbmsSetDomainMap (fun _ => false) hashOrder noDomains 7 _ = _ :=
    dbmsSetDomainMap_of_marked rfl filled marked
  rw [setsMap_iff_of_success done others_delete, dbmsGetDomainMap_delete]
    at sets
  cases sets

end Limestone.DomainMaps
