import Limestone.Library.OrderBy
import Limestone.Schema
import Mathlib.Data.List.Lex

/-!
# Dead properties: `dbms.c` and `sabridge_copy_dead_props`

The table `properties` has no unique key but its id.  A set looks for a row and
inserts or updates; a copy deletes what the destination has and inserts the
rows of the source.

Any statement can fail, for a reason of the schema or for another one.  It has
changed nothing then.
-/

namespace Limestone.DbmsProperties

open Library

/-- A row of `properties`. -/
structure Property where
  id : Id
  namespaceId : Id
  name : Text
  resourceId : Id
  xmlinfo : Text
  value : Text
deriving DecidableEq, Repr

/-- The name of an element, which has no blanks. -/
structure ElementName where
  text : Text
  noBlank : ' ' ∉ text
deriving DecidableEq, Repr

/-- What `dbms_set_dead_property` reads of a `dav_repos_property`. -/
structure DavReposProperty where
  nsId : Id
  name : ElementName
  /-- `none` is NULL. -/
  xmlinfo : Option Text
  value : Option Text
deriving DecidableEq, Repr

/--
The tables that the functions below read and write.  The foreign key of the
namespaces and their primary key hold.
-/
structure PropertyTables where
  properties : List Property
  /-- What `properties_id_seq` gives next. -/
  nextId : Id
  namespaces : List (Id × Text)
  resources : List Id
  namespaceKeys : (namespaces.map Prod.fst).Nodup
  namespaceExists : ∀ row ∈ properties,
    row.namespaceId ∈ namespaces.map Prod.fst

/-- Without dead properties there is no namespace to be found. -/
theorem noProperties_namespaceExists :
    ∀ row ∈ ([] : List Property),
      row.namespaceId ∈ ([] : List (Id × Text)).map Prod.fst :=
  nofun

/-- The statements of the functions, and the call of `dbms_next`. -/
inductive Statement where
  | selectProperty
  | fetchProperty
  | insertProperty
  | updateProperty
  | deleteProperty
  | deleteDeadProps
  | copyDeadProps
deriving DecidableEq, Repr

/-- What a function returns: the tables, and NULL or an error. -/
abbrev Outcome := PropertyTables × Option DavError

def dbmsError (desc : String) : DavError :=
  ⟨httpInternalServerError, desc⟩

/--
The value of a column `character varying(limit)`: a longer text fits only if
nothing but blanks is cut off.
-/
def varchar (limit : Nat) (text : Text) : Option Text :=
  if text.length ≤ limit then some text
  else if (text.drop limit).all fun char => char == ' ' then
    some (text.take limit)
  else none

theorem varchar_length {limit : Nat} {text value : Text}
    (taken : varchar limit text = some value) :
    value.length ≤ limit := by
  unfold varchar at taken
  split at taken
  case isTrue short =>
    rcases Option.some.inj taken with rfl
    exact short
  case isFalse =>
    split at taken
    · rcases Option.some.inj taken with rfl
      rw [List.length_take]
      exact Nat.min_le_left limit text.length
    · cases taken

/-- The column takes the text by cutting blanks off its end. -/
def IsCut (limit : Nat) (text : Text) : Prop :=
  limit < text.length ∧ ∀ char ∈ text.drop limit, char = ' '

/-- A column takes a text, refuses it or cuts it. -/
theorem varchar_cases (limit : Nat) (text : Text) :
    varchar limit text = some text ∧ ¬ IsCut limit text ∨
      varchar limit text = none ∧ ¬ IsCut limit text ∨
      ∃ value, varchar limit text = some value ∧ value.length = limit ∧
        value ≠ text ∧ IsCut limit text := by
  unfold varchar IsCut
  by_cases short : text.length ≤ limit
  · exact Or.inl ⟨if_pos short, fun cut => absurd short (by omega)⟩
  · rw [if_neg short]
    have length : (text.take limit).length = limit := by
      rw [List.length_take]
      omega
    by_cases blank : (text.drop limit).all fun char => char == ' '
    · rw [if_pos blank]
      refine Or.inr (Or.inr ⟨text.take limit, rfl, length, ?_, by omega, ?_⟩)
      · intro same
        rw [same] at length
        omega
      · intro char member
        exact beq_iff_eq.mp (List.all_eq_true.mp blank char member)
    · rw [if_neg blank]
      refine Or.inr (Or.inl ⟨rfl, ?_⟩)
      rintro ⟨-, blanks⟩
      apply blank
      exact List.all_eq_true.mpr fun char member =>
        beq_iff_eq.mpr (blanks char member)

/-- The row is the one for the resource, namespace and name. -/
def Property.hasKey (resourceId namespaceId : Id) (name : Text)
    (row : Property) : Bool :=
  row.resourceId == resourceId && row.name == name &&
    row.namespaceId == namespaceId

/-- The row that `db_insert_property` sends, if the columns take the values. -/
def insertedRow (tables : PropertyTables) (serialno : Id)
    (pr : DavReposProperty) : Option Property := do
  let name ← varchar 4096 pr.name.text
  let xmlinfo ← pr.xmlinfo
  let value ← pr.value
  if serialno ∈ tables.resources then
    return {
      id := tables.nextId
      namespaceId := pr.nsId
      name := name
      resourceId := serialno
      xmlinfo := xmlinfo
      value := value }
  else none

/-- More rows for namespaces that exist. -/
def PropertyTables.insert (tables : PropertyTables) (rows : List Property)
    (known : ∀ row ∈ rows,
      row.namespaceId ∈ tables.namespaces.map Prod.fst) :
    PropertyTables where
  properties := tables.properties ++ rows
  nextId := tables.nextId + rows.length
  namespaces := tables.namespaces
  resources := tables.resources
  namespaceKeys := tables.namespaceKeys
  namespaceExists := by
    intro row member
    rcases List.mem_append.mp member with old | new
    · exact tables.namespaceExists row old
    · exact known row new

/-- `db_insert_property`. -/
def dbInsertProperty (fails : Statement → Bool) (tables : PropertyTables)
    (serialno : Id) (pr : DavReposProperty) : Outcome :=
  match insertedRow tables serialno pr with
  | none => (tables, some (dbmsError "Could not insert dead prop"))
  | some row =>
      if known : row.namespaceId ∈ tables.namespaces.map Prod.fst then
        if fails .insertProperty then
          (tables, some (dbmsError "Could not insert dead prop"))
        else (tables.insert [row] (by simpa using known), none)
      else (tables, some (dbmsError "Could not insert dead prop"))

/-- The UPDATE of `dbms_set_dead_property`. -/
def PropertyTables.assign (tables : PropertyTables)
    (condition : Property → Bool) (xmlinfo value : Text) :
    PropertyTables where
  properties := tables.properties.map fun row =>
    if condition row then { row with xmlinfo := xmlinfo, value := value }
    else row
  nextId := tables.nextId
  namespaces := tables.namespaces
  resources := tables.resources
  namespaceKeys := tables.namespaceKeys
  namespaceExists := by
    intro row member
    rcases List.mem_map.mp member with ⟨old, listed, rfl⟩
    have known := tables.namespaceExists old listed
    by_cases met : condition old = true
    · rw [if_pos met]
      exact known
    · rw [if_neg met]
      exact known

/-- `dbms_set_dead_property`. -/
def dbmsSetDeadProperty (fails : Statement → Bool) (tables : PropertyTables)
    (serialno : Id) (pr : DavReposProperty) : Outcome :=
  let isSame := Property.hasKey serialno pr.nsId pr.name.text
  if fails .selectProperty then (tables, some (dbmsError "dbms_execute error"))
  else if fails .fetchProperty then
    (tables, some (dbmsError "Failed when fetching dead props"))
  else if tables.properties.any isSame then
    match pr.xmlinfo, pr.value with
    | some xmlinfo, some value =>
        if fails .updateProperty then
          (tables, some (dbmsError "dbms_execute error"))
        else (tables.assign isSame xmlinfo value, none)
    | _, _ => (tables, some (dbmsError "dbms_execute error"))
  else dbInsertProperty fails tables serialno pr

/-- A DELETE. -/
def PropertyTables.delete (tables : PropertyTables)
    (condition : Property → Bool) : PropertyTables where
  properties := tables.properties.filter fun row => !condition row
  nextId := tables.nextId
  namespaces := tables.namespaces
  resources := tables.resources
  namespaceKeys := tables.namespaceKeys
  namespaceExists := fun row member =>
    tables.namespaceExists row (List.mem_filter.mp member).1

/-- `dbms_del_dead_property`. -/
def dbmsDelDeadProperty (fails : Statement → Bool) (tables : PropertyTables)
    (serialno : Id) (nsId : Id) (name : ElementName) : Outcome :=
  if fails .deleteProperty then
    (tables, some (dbmsError "Error in the deleting dead prop"))
  else (tables.delete (Property.hasKey serialno nsId name.text), none)

/-- `dbms_delete_dead_props`. -/
def dbmsDeleteDeadProps (fails : Statement → Bool) (tables : PropertyTables)
    (resId : Id) : Outcome :=
  if fails .deleteDeadProps then
    (tables, some (dbmsError "DBMS Error in deleting dead properties"))
  else (tables.delete fun row => row.resourceId == resId, none)

/-- The rows that `dbms_copy_dead_props` inserts; the ids come in a row. -/
def copiedRows (tables : PropertyTables) (srcId destId : Id) : List Property :=
  (tables.properties.filter fun row => row.resourceId == srcId).mapIdx
    fun index row =>
      { row with id := tables.nextId + index, resourceId := destId }

theorem copiedRows_known {tables : PropertyTables} {srcId destId : Id} :
    ∀ row ∈ copiedRows tables srcId destId,
      row.namespaceId ∈ tables.namespaces.map Prod.fst := by
  intro row member
  rcases List.mem_mapIdx.mp member with ⟨index, bound, rfl⟩
  have listed := List.mem_filter.mp (List.getElem_mem bound)
  have known := tables.namespaceExists _ listed.1
  exact known

/-- `dbms_copy_dead_props`. -/
def dbmsCopyDeadProps (fails : Statement → Bool) (tables : PropertyTables)
    (srcId destId : Id) : Outcome :=
  if fails .copyDeadProps ∨
      (copiedRows tables srcId destId ≠ [] ∧ destId ∉ tables.resources) then
    (tables, some (dbmsError "DBMS Error in copying dead properties"))
  else (tables.insert (copiedRows tables srcId destId) copiedRows_known, none)

/-- `sabridge_copy_dead_props`. -/
def sabridgeCopyDeadProps (fails : Statement → Bool) (tables : PropertyTables)
    (srcId destId : Id) : Outcome :=
  match dbmsDeleteDeadProps fails tables destId with
  | (tables, some err) => (tables, some err)
  | (tables, none) => dbmsCopyDeadProps fails tables srcId destId

/-- An entry of the list that `dbms_fill_dead_property` makes. -/
structure FilledProperty where
  serialno : Id
  nsId : Id
  name : Text
  xmlinfo : Text
  value : Text
  namespaceName : Text
deriving DecidableEq, Repr

/-- A row with the name of its namespace. -/
def filledProperty (row : Property × (Id × Text)) : FilledProperty where
  serialno := row.1.resourceId
  nsId := row.1.namespaceId
  name := row.1.name
  xmlinfo := row.1.xmlinfo
  value := row.1.value
  namespaceName := row.2.2

/-- `dbms_fill_dead_property`; properties that are there already stay. -/
def dbmsFillDeadProperty (tables : PropertyTables) (serialno : Id)
    (pr : List FilledProperty) : List FilledProperty :=
  if pr ≠ [] then pr
  else
    (Sql.orderBy (fun row : Property × (Id × Text) =>
        row.1.name.map Char.toNat)
      ((Sql.crossJoin tables.properties tables.namespaces).filter fun row =>
        row.1.namespaceId == row.2.1 && row.1.resourceId == serialno)).map
      filledProperty

end Limestone.DbmsProperties
