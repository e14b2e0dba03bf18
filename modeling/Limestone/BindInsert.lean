import Limestone.BridgeMkcol
import Limestone.DbmsDbd
import Limestone.Library.SqlInsert

/-!
# New binds: `dbms_insert_bind` and `dbms_insert_bind_list`

Both functions are modelled down to the text of the statement, which the
database reads and executes.  One of them sets the name as a parameter; the
other one escapes it twice, formats all binds into a buffer of fixed size and
prepares what it formatted as a statement with placeholders.
-/

namespace Limestone.BindInsert

open Library
open Library.SqlInsert
open DbmsBind
open DbmsDbd
open BridgeMkcol

/-- What `dav_repos_format_time` writes: `%Y-%m-%d %X`. -/
structure TimeText where
  text : Text
  plain : ∀ char ∈ text, char.isDigit = true ∨ char ∈ ['-', ':', ' ']
  length : text.length = 19

/-- An element of a `dbms_bind_list`; its ids are C `long`s. -/
structure BindEntry where
  parentId : Id
  resourceId : Id
  bindName : Text
deriving DecidableEq, Repr

/-! ## The database -/

/-- The values of a row that is inserted into `binds`. -/
structure BindValues where
  name : Text
  collectionId : Id
  resourceId : Id
  updatedAt : Text
deriving DecidableEq, Repr

/-- The value of a row for a column. -/
def columnValue (columns : List Text) (row : List SqlValue)
    (column : String) : Option SqlValue :=
  (columns.zip row).lookup column.toList

def bindValues (columns : List Text) (row : List SqlValue) :
    Option BindValues :=
  match columnValue columns row "name",
      columnValue columns row "collection_id",
      columnValue columns row "resource_id",
      columnValue columns row "updated_at" with
  | some (.text name), some (.number collectionId), some (.number resourceId),
      some (.text updatedAt) =>
      some ⟨name, collectionId, resourceId, updatedAt⟩
  | _, _, _, _ => none

/-- The error of both functions. -/
def insertFailed : DavError :=
  ⟨httpInternalServerError, "Could not insert into binds table."⟩

/-- A row that breaks a constraint makes the statement fail. -/
def insertRow (resources : ResourceTable) (binds : BindSequence)
    (values : BindValues) : Except DavError BindSequence :=
  BridgeMkcol.dbmsInsertBind resources binds values.updatedAt
    values.resourceId values.collectionId values.name

/-- The execution of a text as an `INSERT` into `binds`. -/
def executeText (resources : ResourceTable) (binds : BindSequence)
    (text : Text) : Except DavError BindSequence :=
  match parseInsert false text with
  | none => .error insertFailed
  | some statement =>
      if statement.table = "binds".toList then
        match statement.rows.mapM (bindValues statement.columns) with
        | none => .error insertFailed
        | some rows => rows.foldlM (insertRow resources) binds
      else .error insertFailed

/-- `dbms_execute`: a query that is not sent is a success. -/
def execute (resources : ResourceTable) (binds : BindSequence)
    (query : DavReposQuery) : Except DavError BindSequence :=
  match escquery query with
  | none => .ok binds
  | some text => executeText resources binds text

/-! ## The functions -/

/-- The query of `dbms_insert_bind`. -/
def insertBindQuery (time : TimeText) (resourceId collectionId : Int)
    (bindname : Text) : DavReposQuery :=
  let q := dbmsPrepare ("INSERT INTO binds(name, collection_id, " ++
    "resource_id, updated_at) VALUES(?,?,?,?)").toList
  let q := (dbmsSetString q 1 (some bindname)).2
  let q := (dbmsSetInt q 2 collectionId).2
  let q := (dbmsSetInt q 3 resourceId).2
  (dbmsSetString q 4 (some time.text)).2

/-- `dbms_insert_bind`. -/
def dbmsInsertBind (resources : ResourceTable) (binds : BindSequence)
    (time : TimeText) (resourceId collectionId : Int) (bindname : Text) :
    Except DavError BindSequence :=
  execute resources binds
    (insertBindQuery time resourceId collectionId bindname)

/-- Calls of `dbms_insert_bind`, each at a time of its own. -/
def insertSingly (resources : ResourceTable) (binds : BindSequence)
    (calls : List (TimeText × BindEntry)) : Except DavError BindSequence :=
  calls.foldlM
    (fun binds call =>
      dbmsInsertBind resources binds call.1 (toInt call.2.resourceId)
        (toInt call.2.parentId) call.2.bindName)
    binds

/-- `(%ld, '%s', %ld, '%s')`, where the name is escaped. -/
def entryText (updatedAt : TimeText) (entry : BindEntry) : Text :=
  '(' :: (toString entry.parentId).toList ++ ", '".toList ++
    dbmsEscape entry.bindName ++ "', ".toList ++
    (toString entry.resourceId).toList ++ ", '".toList ++ updatedAt.text ++
    "')".toList

/-- The assignment to `bind_name` before it is formatted. -/
def escapeName (entry : BindEntry) : BindEntry :=
  { entry with bindName := dbmsEscape entry.bindName }

def insertIntoBinds : Text :=
  ("INSERT INTO binds" ++ "(collection_id,name,resource_id,updated_at)" ++
    " VALUES ").toList

/-- The `query_str` of a list of binds. -/
def queryStr (updatedAt : TimeText) (bindList : List BindEntry) : Text :=
  match bindList.map escapeName with
  | [] => []
  | first :: rest =>
      insertIntoBinds ++ entryText updatedAt first ++
        rest.flatMap fun entry => ',' :: entryText updatedAt entry

/-- The bytes of `query_str` that are allocated. -/
def allocated (array : Nat) : Nat :=
  300 + 150 * array

/-- The bytes of a text. -/
def byteLength (text : Text) : Nat :=
  (text.map Char.utf8Size).sum

/-- The bytes that are written, with the one that terminates the text. -/
def bytesUsed (updatedAt : TimeText) (bindList : List BindEntry) : Nat :=
  byteLength (queryStr updatedAt bindList) + 1

/-- Why the bulk call does not return success. -/
inductive Stop where
  | davError (error : DavError)
  /-- `sprintf` wrote past the end of its buffer. -/
  | overflow
deriving DecidableEq, Repr

/-- `dbms_insert_bind_list` for an array. -/
def dbmsInsertBindList (resources : ResourceTable) (binds : BindSequence)
    (updatedAt : TimeText) (bindList : List BindEntry) :
    Except Stop BindSequence :=
  if bindList.length = 0 then
    .error (.davError
      ⟨httpInternalServerError, "inserting a chain not supported yet"⟩)
  else if allocated bindList.length < bytesUsed updatedAt bindList then
    .error .overflow
  else
    (execute resources binds
      (dbmsPrepare (queryStr updatedAt bindList))).mapError Stop.davError

end Limestone.BindInsert
