import Limestone.Schema
import Limestone.Library.Loop

/-!
# The bind table: `dbms_bind.c`

A bind gives a resource a name in a collection.  The path search goes
backwards from the resource: it asks for the binds of all resources met so
far, extends their paths by one name, and stops at the start collection or
when a query shows no new collection.
-/

namespace Limestone.DbmsBind

open Library

/-- A row of `binds`. -/
structure Bind where
  id : Id
  name : Text
  collectionId : Id
  resourceId : Id
  updatedAt : Option Text
deriving DecidableEq, Repr

/-- The columns of the unique key of `binds`. -/
def Bind.key (bind : Bind) : Id × Text :=
  (bind.collectionId, bind.name)

/-- The table `binds` with its keys; all ids come from sequences. -/
structure BindTable where
  rows : List Bind
  pkey : (rows.map Bind.id).Nodup
  collectionIdKey : (rows.map Bind.key).Nodup
  positive : ∀ bind ∈ rows, 0 < bind.id ∧ 0 < bind.resourceId

/-- The binds that are left of a table keep its keys. -/
def BindTable.keep (table : BindTable) (kept : Bind → Bool) : BindTable where
  rows := table.rows.filter kept
  pkey := table.pkey.sublist (List.filter_sublist.map Bind.id)
  collectionIdKey :=
    table.collectionIdKey.sublist (List.filter_sublist.map Bind.key)
  positive := fun bind member =>
    table.positive bind (List.mem_of_mem_filter member)

/-- `ROOT_COLLECTION_ID`. -/
def rootCollectionId : Id := 2

/-- `ROOT_UPDATED_AT`. -/
def rootUpdatedAt : Text := "2006-07-14 13:15:49".toList

/-! ## Single binds -/

/-- `dbms_get_bind_resource_id`: zero when there is no bind. -/
def dbmsGetBindResourceId (binds : List Bind) (collId : Id)
    (bindName : Text) : Id :=
  match binds.filter fun bind =>
      bind.collectionId == collId && bind.name == bindName with
  | [] => 0
  | bind :: _ => bind.resourceId

/-- The id that `dbms_get_bind` leaves in its bind: zero when there is none. -/
def dbmsGetBindId (binds : List Bind) (collId : Id) (bindName : Text) : Id :=
  match binds.filter fun bind =>
      bind.collectionId == collId && bind.name == bindName with
  | [] => 0
  | bind :: _ => bind.id

/-- `dbms_delete_bind`. -/
def dbmsDeleteBind (binds : List Bind) (collId resId : Id)
    (bindName : Text) : List Bind :=
  binds.filter fun bind =>
    !(bind.collectionId == collId && bind.resourceId == resId &&
      bind.name == bindName)

/-! ## Members under version control -/

/--
The rows that `dbms_copy_resource_collection_version` inserts: the members
that have a row in `vcrs`, each with the history there.  The ids of the
sequence come in a row.
-/
def copiedBinds (binds : List Bind) (vcrs : List (Id × Id))
    (nextBindId srcId dstId : Id) : List Bind :=
  ((Sql.crossJoin binds vcrs).filter fun pair =>
    pair.1.resourceId == pair.2.1 &&
      pair.1.collectionId == srcId).mapIdx fun index pair =>
        { id := nextBindId + index
          name := pair.1.name
          collectionId := dstId
          resourceId := pair.2.2
          updatedAt := pair.1.updatedAt }

/-! ## Paths -/

/-- The ids of the list of excluded binds that the query names. -/
def excludedIds : List Id → List Id
  | [] => []
  | first :: rest => first :: rest.filter fun bindId => bindId > 0

/-- What the search keeps between two queries. -/
structure SearchState where
  /-- Number of queries made. -/
  queries : Nat
  forefathers : List Id
  newForefathers : List Id
  shortestPathHash : List (Id × Text)
  /-- The pointer into the list of excluded binds; `[]` is NULL. -/
  exclBinds : List Id
deriving Repr

/-- The rows of one query: a path, or the new collections and the hash. -/
def scanRows (fromResId : Id) :
    List Bind → List Id → List (Id × Text) →
      Text ⊕ List Id × List (Id × Text)
  | [], newForefathers, hash => .inr (newForefathers, hash)
  | row :: rows, newForefathers, hash =>
      if (hash.lookup row.collectionId).isSome then
        scanRows fromResId rows newForefathers hash
      else
        let parentSp :=
          '/' :: row.name ++ (hash.lookup row.resourceId).getD []
        if row.collectionId = fromResId then .inl parentSp
        else
          scanRows fromResId rows (newForefathers ++ [row.collectionId])
            ((row.collectionId, parentSp) :: hash)

/-- The rows of the query of one round. -/
def parentBinds (binds : List Bind) (state : SearchState) : List Bind :=
  binds.filter fun bind =>
    decide (bind.resourceId ∈ state.forefathers ++ state.newForefathers) &&
      !decide (bind.id ∈ excludedIds state.exclBinds)

/--
The body of the `do .. while`.  The inner loop walks `excl_binds` to its end,
so that the pointer is NULL from the second round on.
-/
def searchRound (order : Sql.RowOrder Bind) (binds : List Bind)
    (fromResId : Id) (state : SearchState) : Option Text ⊕ SearchState :=
  let rows := order.arrange state.queries (parentBinds binds state)
  match scanRows fromResId rows [] state.shortestPathHash with
  | .inl path => .inl (some path)
  | .inr (newForefathers, hash) =>
      if newForefathers = [] then .inl none
      else .inr
        { queries := state.queries + 1
          forefathers := state.forefathers ++ state.newForefathers
          newForefathers := newForefathers
          shortestPathHash := hash
          exclBinds := [] }

/-- The state in which the search starts. -/
def searchStart (toResId : Id) (exclBinds : List Id) : SearchState where
  queries := 0
  forefathers := [toResId]
  newForefathers := []
  shortestPathHash := [(toResId, [])]
  exclBinds := exclBinds

/--
`dbms_find_shortest_path_excl_binds`: `none` while the loop is running, else
the path, where `some none` is NULL.
-/
def dbmsFindShortestPathExclBinds (fuel : Nat) (order : Sql.RowOrder Bind)
    (binds : List Bind) (fromResId toResId : Id) (exclBinds : List Id) :
    Option (Option Text) :=
  if fromResId = toResId then some (some [])
  else Loop.run (searchRound order binds fromResId) fuel
    (searchStart toResId exclBinds)

/-- `dbms_find_shortest_path`. -/
def dbmsFindShortestPath (fuel : Nat) (order : Sql.RowOrder Bind)
    (binds : List Bind) (fromResId toResId : Id) : Option (Option Text) :=
  dbmsFindShortestPathExclBinds fuel order binds fromResId toResId []

end Limestone.DbmsBind
