import Limestone.DbmsBind
import Limestone.DbmsDbd
import Limestone.Library.Segments

/-!
# One query for a URI: `dbms_lookup_uri`

The tokens of the URI become a chain of outer joins of `binds`, one for each
token.  The text of the query decides whether it is executed at all; its
meaning is a list of rows, with one column for each join and NULL from the
first join on that finds nothing.
-/

namespace Limestone.DbmsLookup

open Library
open DbmsBind
open DbmsDbd

/-- `compact_uri`. -/
def compactUri (uri : Text) : Text :=
  Segments.squeeze '/' uri

/-! ## The text of the query -/

/-- The strings that the loop over the tokens extends. -/
structure QueryParts where
  /-- `i`, the number of joined binds. -/
  count : Nat
  select : Text
  uriMaxUpdatedAt : Text
  fromClause : Text
  whereClause : Text
deriving Repr

/-- `%d`. -/
def number (value : Nat) : Text :=
  (toString value).toList

/-- The strings for the first token. -/
def firstPart (next : Text) : QueryParts where
  count := 1
  select := "SELECT b1.resource_id".toList
  uriMaxUpdatedAt := "greatest(lastmodified, b1.updated_at".toList
  fromClause := "FROM binds b1 ".toList
  whereClause := "WHERE b1.collection_id = 2 AND b1.name = '".toList ++
    dbmsEscape next ++ "' ".toList

/-- The strings after one more token. -/
def addPart (parts : QueryParts) (next : Text) : QueryParts :=
  let i := parts.count + 1
  { count := i
    select := parts.select ++ ", b".toList ++ number i ++
      ".resource_id".toList
    uriMaxUpdatedAt := parts.uriMaxUpdatedAt ++ ", b".toList ++ number i ++
      ".updated_at".toList
    fromClause := parts.fromClause ++ "LEFT OUTER JOIN binds b".toList ++
      number i ++ " ON (b".toList ++ number (i - 1) ++
      ".resource_id = b".toList ++ number i ++ ".collection_id AND b".toList ++
      number i ++ ".name = '".toList ++ dbmsEscape next ++ "') ".toList
    whereClause := parts.whereClause }

/-- The whole query. -/
def queryText (parts : QueryParts) : Text :=
  parts.select ++ ", ".toList ++ parts.uriMaxUpdatedAt ++
    ") AS uri_max_updated_at, b".toList ++ number parts.count ++
    ".id ".toList ++ parts.fromClause ++
    "LEFT OUTER JOIN resources ON resources.id = b".toList ++
    number parts.count ++ ".resource_id ".toList ++ parts.whereClause

/-! ## The rows of the query -/

/-- The binds that a join with a quoted name finds. -/
def bindsNamed (binds : List Bind) (collId : Id) (literal : Text) :
    List Bind :=
  binds.filter fun bind =>
    bind.collectionId == collId && bind.name == readLiteral literal

/-- `LEFT OUTER JOIN binds` for each literal; `none` is a NULL column. -/
def joinedBinds (binds : List Bind) :
    Option Id → List Text → List (List (Option Bind))
  | _, [] => [[]]
  | none, _ :: literals =>
      (joinedBinds binds none literals).map fun row => none :: row
  | some collId, literal :: literals =>
      match bindsNamed binds collId literal with
      | [] => (joinedBinds binds none literals).map fun row => none :: row
      | found => found.flatMap fun bind =>
          (joinedBinds binds (some bind.resourceId) literals).map fun row =>
            some bind :: row

/-- The rows of the query for the escaped names. -/
def lookupRows (binds : List Bind) (first : Text) (rest : List Text) :
    List (List (Option Bind)) :=
  (bindsNamed binds rootCollectionId first).flatMap fun bind =>
    (joinedBinds binds (some bind.resourceId) rest).map fun row =>
      some bind :: row

/-- `greatest`, which ignores NULL. -/
def greatest (times : List (Option Text)) : Option Text :=
  times.foldl (fun latest time =>
    match latest, time with
    | none, time => time
    | latest, none => latest
    | some latest, some time => some (if latest < time then time else latest))
    none

/-! ## Reading the row -/

/-- A `dbms_bind_list`, as far as the lookup fills it. -/
structure DbmsBindList where
  resourceId : Id := 0
  parentId : Id := 0
  bindId : Id := 0
  uri : Option Text := none
  updatedAt : Text := []
deriving DecidableEq, Repr

/-- `offset` after the loop over the characters of the URI. -/
def slashOffset (limit : Nat) : Nat → Nat → Text → Nat
  | count, offset, [] => if count = limit then offset - 1 else offset
  | count, offset, char :: uri =>
      if count < limit then
        slashOffset limit (if char = '/' then count + 1 else count)
          (offset + 1) uri
      else if count = limit then offset - 1
      else offset

/-- The result of the lookup. -/
inductive LookupResult where
  /-- `dbms_results_count` is called on results that do not exist. -/
  | undefined
  | error (err : DavError)
  /-- No error, and `*p_bind` is left as it was. -/
  | noBind
  | found (bind : DbmsBindList)
deriving DecidableEq, Repr

/-- The bind that is made of a row; NULL reads as an empty string. -/
def readRow (lastModified : Id → Option Text) (uri : Text)
    (row : List (Option Bind)) : DbmsBindList :=
  let resourceIds := row.map (Option.map Bind.resourceId)
  let last := row.getLast?.join
  let times := (last.bind fun bind => lastModified bind.resourceId) ::
    row.map fun bind => bind.bind Bind.updatedAt
  let j := (resourceIds.takeWhile Option.isSome).length
  let reached := (resourceIds[j - 1]?.join).getD 0
  { resourceId := if j ≠ row.length then -1 else reached
    parentId := if j ≠ row.length then reached else 0
    uri := if j ≠ row.length then
        some (uri.take (slashOffset (j + 1) 0 0 uri))
      else none
    updatedAt := (greatest times).getD []
    bindId := (last.map Bind.id).getD 0 }

/-- `dbms_lookup_uri`. -/
def dbmsLookupUri (databaseFails : Bool) (binds : List Bind)
    (lastModified : Id → Option Text) (uriFromRoot : Text) : LookupResult :=
  let uri := compactUri uriFromRoot
  match Segments.tokens '/' uri with
  | [] =>
      .found { resourceId := rootCollectionId, updatedAt := rootUpdatedAt }
  | next :: names =>
      let parts := names.foldl addPart (firstPart next)
      match escquery (dbmsPrepare (queryText parts)) with
      -- `dbms_execute` has returned 0 and left `q->results` NULL
      | none => .undefined
      | some _ =>
          if databaseFails then
            .error ⟨httpInternalServerError, "dbms_execute error"⟩
          else
            match lookupRows binds (dbmsEscape next)
                (names.map dbmsEscape) with
            | [] => .noBind
            | row :: _ => .found (readRow lastModified uri row)

end Limestone.DbmsLookup
