import Limestone.DbmsProperties
import Limestone.Library.Runs

/-!
# Dead properties are a map

From a table with at most one row for a resource, namespace and name, every
run of sets, deletions and copies leads to such tables.  The table then is a
map, a set assigns to it, and a copy replaces what it says of the destination.
-/

namespace Limestone.DeadProperties

open Library DbmsProperties

variable {tables : PropertyTables} {fails : Statement → Bool}
  {serialno nsId srcId destId resourceId : Id} {name : Text}
  {elementName : ElementName} {pr : DavReposProperty} {row : Property}

/-! ## The table as a map -/

/-- Resource, namespace and name. -/
abbrev Key := Id × Id × Text

def key (row : Property) : Key :=
  (row.resourceId, row.namespaceId, row.name)

def contents (row : Property) : Text × Text :=
  (row.xmlinfo, row.value)

/-- At most one row for a resource, namespace and name. -/
def IsMap (tables : PropertyTables) : Prop :=
  (tables.properties.map key).Nodup

theorem hasKey_iff :
    row.hasKey serialno nsId name = true ↔ key row = (serialno, nsId, name) := by
  simp only [Property.hasKey, key, Bool.and_eq_true, beq_iff_eq, Prod.mk.injEq]
  constructor
  · rintro ⟨⟨resource, name⟩, namespaces⟩
    exact ⟨resource, namespaces, name⟩
  · rintro ⟨resource, namespaces, name⟩
    exact ⟨⟨resource, name⟩, namespaces⟩

/-! ## Sets -/

theorem varchar_elementName {limit : Nat} {text : Text}
    (fits : varchar limit elementName.text = some text) :
    text = elementName.text := by
  unfold varchar at fits
  split at fits
  next => exact (Option.some.inj fits).symm
  next long =>
      -- only blanks would be cut off, and there are none
      exfalso
      split at fits
      next blank =>
          rw [List.all_eq_true] at blank
          have rest : elementName.text.drop limit ≠ [] := by
            rw [Ne, List.drop_eq_nil_iff]
            exact long
          rcases List.exists_mem_of_ne_nil _ rest with ⟨char, member⟩
          rcases beq_iff_eq.mp (blank char member) with rfl
          exact elementName.noBlank (List.mem_of_mem_drop member)
      next => cases fits

/-- The row that a set inserts. -/
def newRow (tables : PropertyTables) (serialno : Id) (pr : DavReposProperty)
    (xmlinfo value : Text) : Property where
  id := tables.nextId
  namespaceId := pr.nsId
  name := pr.name.text
  resourceId := serialno
  xmlinfo := xmlinfo
  value := value

theorem insertedRow_eq_some
    (fits : insertedRow tables serialno pr = some row) :
    ∃ xmlinfo value, pr.xmlinfo = some xmlinfo ∧ pr.value = some value ∧
      row = newRow tables serialno pr xmlinfo value := by
  simp only [insertedRow, Option.bind_eq_bind, Option.bind_eq_some_iff] at fits
  rcases fits with ⟨name, isName, xmlinfo, isXmlinfo, value, isValue, made⟩
  split at made
  next =>
      rcases varchar_elementName isName with rfl
      exact ⟨xmlinfo, value, isXmlinfo, isValue, (Option.some.inj made).symm⟩
  next => cases made

/-- What a set that succeeds does to the rows. -/
def IsSet (before after : PropertyTables) (serialno : Id)
    (pr : DavReposProperty) : Prop :=
  ∃ xmlinfo value, pr.xmlinfo = some xmlinfo ∧ pr.value = some value ∧
    ((∃ row ∈ before.properties,
        key row = (serialno, pr.nsId, pr.name.text)) ∧
      after = before.assign
        (Property.hasKey serialno pr.nsId pr.name.text) xmlinfo value ∨
    (∀ row ∈ before.properties,
        key row ≠ (serialno, pr.nsId, pr.name.text)) ∧
      after.properties =
        before.properties ++ [newRow before serialno pr xmlinfo value])

/-- Either nothing is changed and an error returned, or the row is set. -/
theorem dbmsSetDeadProperty_cases
    (fails : Statement → Bool) (tables : PropertyTables) (serialno : Id)
    (pr : DavReposProperty) :
    ((dbmsSetDeadProperty fails tables serialno pr).2 ≠ none ∧
      (dbmsSetDeadProperty fails tables serialno pr).1 = tables) ∨
    ((dbmsSetDeadProperty fails tables serialno pr).2 = none ∧
      IsSet tables (dbmsSetDeadProperty fails tables serialno pr).1
        serialno pr) := by
  unfold dbmsSetDeadProperty
  simp only
  split
  next => exact Or.inl ⟨nofun, rfl⟩
  split
  next => exact Or.inl ⟨nofun, rfl⟩
  split
  next present =>
      rw [List.any_eq_true] at present
      rcases present with ⟨row, member, same⟩
      split
      next xmlinfo value isXmlinfo isValue =>
          split
          next => exact Or.inl ⟨nofun, rfl⟩
          next =>
              exact Or.inr ⟨rfl, xmlinfo, value, isXmlinfo, isValue,
                Or.inl ⟨⟨row, member, hasKey_iff.mp same⟩, rfl⟩⟩
      next => exact Or.inl ⟨nofun, rfl⟩
  next present =>
      have absent : ∀ row ∈ tables.properties,
          key row ≠ (serialno, pr.nsId, pr.name.text) := by
        intro row member same
        exact present (List.any_eq_true.mpr ⟨row, member, hasKey_iff.mpr same⟩)
      unfold dbInsertProperty
      split
      next => exact Or.inl ⟨nofun, rfl⟩
      next row fits =>
          split
          next known =>
              split
              next => exact Or.inl ⟨nofun, rfl⟩
              next =>
                  rcases insertedRow_eq_some fits with
                    ⟨xmlinfo, value, isXmlinfo, isValue, rfl⟩
                  exact Or.inr ⟨rfl, xmlinfo, value, isXmlinfo, isValue,
                    Or.inr ⟨absent, rfl⟩⟩
          next => exact Or.inl ⟨nofun, rfl⟩

theorem keys_assign (condition : Property → Bool) (xmlinfo value : Text) :
    (tables.assign condition xmlinfo value).properties.map key =
      tables.properties.map key := by
  let assign : Property → Property :=
    fun row => { row with xmlinfo := xmlinfo, value := value }
  have keeps : ∀ row, key (assign row) = key row := fun _ => rfl
  exact Sql.map_key_assign (fun row => condition row = true) assign keeps
    tables.properties

theorem IsSet.isMap
    {after : PropertyTables}
    (isSet : IsSet tables after serialno pr)
    (isMap : IsMap tables) :
    IsMap after := by
  rcases isSet with
    ⟨xmlinfo, value, -, -, ⟨-, rfl⟩ | ⟨absent, appended⟩⟩
  · rw [IsMap, keys_assign]
    exact isMap
  · rw [IsMap, appended, List.map_append, List.nodup_append]
    refine ⟨isMap, List.nodup_singleton _, ?_⟩
    rintro old oldMember new newMember rfl
    rcases List.mem_map.mp oldMember with ⟨row, member, rfl⟩
    exact absent row member (List.mem_singleton.mp newMember)

/-- The rows of the set key are the new texts. -/
theorem IsSet.of_key
    {after : PropertyTables}
    (isSet : IsSet tables after serialno pr) :
    (∃ row ∈ after.properties,
        key row = (serialno, pr.nsId, pr.name.text)) ∧
      ∀ row ∈ after.properties,
        key row = (serialno, pr.nsId, pr.name.text) →
          some row.xmlinfo = pr.xmlinfo ∧ some row.value = pr.value := by
  rcases isSet with ⟨xmlinfo, value, isXmlinfo, isValue,
    ⟨⟨found, member, same⟩, rfl⟩ | ⟨absent, appended⟩⟩
  · constructor
    · refine ⟨_, List.mem_map_of_mem member, ?_⟩
      rw [if_pos (hasKey_iff.mpr same)]
      exact same
    · intro row rowMember rowKey
      rcases List.mem_map.mp rowMember with ⟨old, oldMember, rfl⟩
      by_cases assigned :
          old.hasKey serialno pr.nsId pr.name.text = true
      · rw [if_pos assigned]
        exact ⟨isXmlinfo.symm, isValue.symm⟩
      · rw [if_neg assigned] at rowKey
        exact (assigned (hasKey_iff.mpr rowKey)).elim
  · rw [appended]
    constructor
    · exact ⟨_, List.mem_append_right _ (List.mem_singleton_self _), rfl⟩
    · intro row rowMember rowKey
      rcases List.mem_append.mp rowMember with old | new
      · exact (absent row old rowKey).elim
      · rcases List.mem_singleton.mp new with rfl
        exact ⟨isXmlinfo.symm, isValue.symm⟩

/-- All other rows stay as they are. -/
theorem IsSet.of_other_key
    {after : PropertyTables}
    (isSet : IsSet tables after serialno pr)
    (other : key row ≠ (serialno, pr.nsId, pr.name.text)) :
    row ∈ after.properties ↔ row ∈ tables.properties := by
  rcases isSet with
    ⟨xmlinfo, value, -, -, ⟨-, rfl⟩ | ⟨absent, appended⟩⟩
  · show row ∈ tables.properties.map _ ↔ _
    rw [List.mem_map]
    constructor
    · rintro ⟨old, member, rfl⟩
      by_cases assigned :
          old.hasKey serialno pr.nsId pr.name.text = true
      · rw [if_pos assigned] at other
        exact (other (hasKey_iff.mp assigned)).elim
      · rw [if_neg assigned]
        exact member
    · intro member
      refine ⟨row, member, if_neg ?_⟩
      intro assigned
      exact other (hasKey_iff.mp assigned)
  · rw [appended, List.mem_append, List.mem_singleton, or_iff_left]
    rintro rfl
    exact other rfl

/-! ## Deletions and copies -/

theorem isMap_delete
    (isMap : IsMap tables) (condition : Property → Bool) :
    IsMap (tables.delete condition) :=
  isMap.sublist (List.filter_sublist.map key)

theorem dbmsDelDeadProperty_cases
    (fails : Statement → Bool) (tables : PropertyTables)
    (serialno nsId : Id) (name : ElementName) :
    (dbmsDelDeadProperty fails tables serialno nsId name).1 = tables ∨
      (dbmsDelDeadProperty fails tables serialno nsId name).1 =
        tables.delete (Property.hasKey serialno nsId name.text) := by
  unfold dbmsDelDeadProperty
  split
  next => exact Or.inl rfl
  next => exact Or.inr rfl

/-- What a copy that succeeds does to the rows. -/
def IsCopy (before after : PropertyTables) (srcId destId : Id) : Prop :=
  let cleared := before.delete fun row => row.resourceId == destId
  after.properties = cleared.properties ++ copiedRows cleared srcId destId

/-- A copy that fails may have deleted what the destination had. -/
theorem sabridgeCopyDeadProps_cases
    (fails : Statement → Bool) (tables : PropertyTables) (srcId destId : Id) :
    ((sabridgeCopyDeadProps fails tables srcId destId).2 ≠ none ∧
      (sabridgeCopyDeadProps fails tables srcId destId).1 = tables) ∨
    ((sabridgeCopyDeadProps fails tables srcId destId).2 ≠ none ∧
      (sabridgeCopyDeadProps fails tables srcId destId).1 =
        tables.delete fun row => row.resourceId == destId) ∨
    ((sabridgeCopyDeadProps fails tables srcId destId).2 = none ∧
      IsCopy tables (sabridgeCopyDeadProps fails tables srcId destId).1
        srcId destId) := by
  unfold sabridgeCopyDeadProps dbmsDeleteDeadProps
  by_cases deleteFails : fails .deleteDeadProps = true
  · rw [if_pos deleteFails]
    exact Or.inl ⟨nofun, rfl⟩
  · rw [if_neg deleteFails]
    right
    unfold dbmsCopyDeadProps
    simp only
    split
    next => exact Or.inl ⟨nofun, rfl⟩
    next => exact Or.inr ⟨rfl, rfl⟩

theorem mem_copiedRows
    (member : row ∈ copiedRows tables srcId destId) :
    row.resourceId = destId ∧ ∃ source ∈ tables.properties,
      source.resourceId = srcId ∧ source.namespaceId = row.namespaceId ∧
        source.name = row.name ∧ contents source = contents row := by
  rcases List.mem_mapIdx.mp member with ⟨index, bound, rfl⟩
  have listed := List.mem_filter.mp (List.getElem_mem bound)
  exact ⟨rfl, _, listed.1, by simpa using listed.2, rfl, rfl, rfl⟩

/-- Every row of the source has its copy. -/
theorem exists_copiedRow
    {source : Property}
    (member : source ∈ tables.properties)
    (isSource : source.resourceId = srcId) :
    ∃ row ∈ copiedRows tables srcId destId,
      row.namespaceId = source.namespaceId ∧ row.name = source.name ∧
        contents row = contents source := by
  have listed : source ∈
      tables.properties.filter fun row => row.resourceId == srcId :=
    List.mem_filter.mpr ⟨member, by simpa using isSource⟩
  rcases List.getElem_of_mem listed with ⟨index, bound, found⟩
  refine ⟨_, List.mem_mapIdx.mpr ⟨index, bound, rfl⟩, ?_⟩
  rw [found]
  exact ⟨rfl, rfl, rfl⟩

theorem keys_copiedRows :
    (copiedRows tables srcId destId).map key =
      (tables.properties.filter fun row => row.resourceId == srcId).map
        fun row => (destId, row.namespaceId, row.name) := by
  apply List.ext_getElem
  · simp [copiedRows]
  · intro index _ _
    simp [copiedRows, key]

theorem nodup_keys_copiedRows (isMap : IsMap tables) :
    ((copiedRows tables srcId destId).map key).Nodup := by
  have sources : ((tables.properties.filter fun row =>
      row.resourceId == srcId).map key).Nodup :=
    isMap.sublist (List.filter_sublist.map key)
  rw [keys_copiedRows]
  apply List.Nodup.map_on _ sources.of_map
  intro row member other otherMember same
  have isSource := (List.mem_filter.mp member).2
  have otherIsSource := (List.mem_filter.mp otherMember).2
  rw [beq_iff_eq] at isSource otherIsSource
  -- rows of one resource with one namespace and name have one key
  apply List.inj_on_of_nodup_map sources member otherMember
  rw [key, key, isSource, otherIsSource, (Prod.mk.inj same).2]

theorem mem_cleared {resourceId : Id} :
    row ∈ (tables.delete fun row => row.resourceId == resourceId).properties ↔
      row ∈ tables.properties ∧ row.resourceId ≠ resourceId := by
  simp [PropertyTables.delete]

theorem IsCopy.isMap
    {after : PropertyTables}
    (isCopy : IsCopy tables after srcId destId)
    (isMap : IsMap tables) :
    IsMap after := by
  have cleared := isMap_delete isMap fun row => row.resourceId == destId
  rw [IsMap, isCopy, List.map_append, List.nodup_append]
  refine ⟨cleared, nodup_keys_copiedRows cleared, ?_⟩
  rintro old oldMember new newMember rfl
  rcases List.mem_map.mp oldMember with ⟨row, member, same⟩
  rcases List.mem_map.mp newMember with ⟨copied, copiedMember, rfl⟩
  have resources : row.resourceId = copied.resourceId := congrArg Prod.fst same
  rw [(mem_copiedRows copiedMember).1] at resources
  exact (mem_cleared.mp member).2 resources

/-- Namespace, name and texts of the properties of a resource. -/
def propertiesOf (tables : PropertyTables) (resourceId : Id) :
    Set (Id × Text × Text × Text) :=
  { property | ∃ row ∈ tables.properties, row.resourceId = resourceId ∧
    (row.namespaceId, row.name, row.xmlinfo, row.value) = property }

/-- Rows of other resources stay as they are. -/
theorem IsCopy.of_other_resource
    {after : PropertyTables}
    (isCopy : IsCopy tables after srcId destId)
    (other : row.resourceId ≠ destId) :
    row ∈ after.properties ↔ row ∈ tables.properties := by
  rw [isCopy, List.mem_append, mem_cleared, or_iff_left, and_iff_left other]
  intro copied
  exact other (mem_copiedRows copied).1

/-- The destination has what another source has. -/
theorem IsCopy.propertiesOf_eq
    {after : PropertyTables}
    (isCopy : IsCopy tables after srcId destId)
    (different : srcId ≠ destId) :
    propertiesOf after destId = propertiesOf tables srcId := by
  ext property
  constructor
  · rintro ⟨row, member, isDest, rfl⟩
    rw [isCopy, List.mem_append, mem_cleared] at member
    rcases member with ⟨-, notDest⟩ | copied
    · exact (notDest isDest).elim
    · rcases (mem_copiedRows copied).2 with
        ⟨source, listed, isSource, namespaces, names, texts⟩
      refine ⟨source, (mem_cleared.mp listed).1, isSource, ?_⟩
      rcases Prod.mk.inj texts with ⟨xmlinfo, value⟩
      rw [namespaces, names, xmlinfo, value]
  · rintro ⟨source, member, isSource, rfl⟩
    have kept : source ∈
        (tables.delete fun row => row.resourceId == destId).properties := by
      rw [mem_cleared, isSource]
      exact ⟨member, different⟩
    rcases exists_copiedRow kept isSource with
      ⟨row, copied, namespaces, names, texts⟩
    refine ⟨row, ?_, (mem_copiedRows copied).1, ?_⟩
    · rw [isCopy]
      exact List.mem_append_right _ copied
    · rcases Prod.mk.inj texts with ⟨xmlinfo, value⟩
      rw [namespaces, names, xmlinfo, value]

/-! ## Reads -/

/-- The list has the property with these texts, and with no others. -/
def Lists (filled : List FilledProperty) (nsId : Id) (name : Text)
    (xmlinfo value : Option Text) : Prop :=
  (∃ entry ∈ filled, entry.nsId = nsId ∧ entry.name = name) ∧
    ∀ entry ∈ filled, entry.nsId = nsId → entry.name = name →
      some entry.xmlinfo = xmlinfo ∧ some entry.value = value

theorem mem_dbmsFillDeadProperty {entry : FilledProperty} :
    entry ∈ dbmsFillDeadProperty tables serialno [] ↔
      ∃ row ∈ tables.properties, row.resourceId = serialno ∧
        ∃ found ∈ tables.namespaces, found.1 = row.namespaceId ∧
          filledProperty (row, found) = entry := by
  rw [dbmsFillDeadProperty, if_neg (not_not.mpr rfl)]
  simp only [List.mem_map, Sql.mem_orderBy, List.mem_filter, Sql.mem_crossJoin,
    Bool.and_eq_true, beq_iff_eq, Prod.exists]
  constructor
  · rintro ⟨row, id, namespaceName, ⟨⟨member, listed⟩, joined, isOf⟩, rfl⟩
    exact ⟨row, member, isOf, id, namespaceName, listed, joined.symm, rfl⟩
  · rintro ⟨row, member, isOf, id, namespaceName, listed, joined, rfl⟩
    exact ⟨row, id, namespaceName, ⟨⟨member, listed⟩, joined.symm, isOf⟩, rfl⟩

/-- A read lists what the rows say. -/
theorem lists_of_rows
    {xmlinfo value : Option Text}
    (found : ∃ row ∈ tables.properties, key row = (serialno, nsId, name))
    (only : ∀ row ∈ tables.properties, key row = (serialno, nsId, name) →
      some row.xmlinfo = xmlinfo ∧ some row.value = value) :
    Lists (dbmsFillDeadProperty tables serialno []) nsId name xmlinfo value := by
  constructor
  · rcases found with ⟨row, member, same⟩
    rcases Prod.mk.inj same with ⟨resource, rest⟩
    rcases Prod.mk.inj rest with ⟨namespaces, names⟩
    rcases List.mem_map.mp (tables.namespaceExists row member) with
      ⟨joined, listed, isId⟩
    refine ⟨filledProperty (row, joined), ?_, namespaces, names⟩
    exact mem_dbmsFillDeadProperty.mpr
      ⟨row, member, resource, joined, listed, isId, rfl⟩
  · intro entry listed namespaces names
    rcases mem_dbmsFillDeadProperty.mp listed with
      ⟨row, member, resource, joined, -, -, rfl⟩
    apply only row member
    exact Prod.ext resource (Prod.ext namespaces names)

/-! ## Runs -/

/-- A call of one of the functions, with the statements that fail in it. -/
inductive Call where
  | set (fails : Statement → Bool) (serialno : Id) (pr : DavReposProperty)
  | delete (fails : Statement → Bool) (serialno nsId : Id) (name : ElementName)
  | copy (fails : Statement → Bool) (srcId destId : Id)

/-- What the call returns. -/
def Call.outcome (tables : PropertyTables) : Call → Outcome
  | .set fails serialno pr => dbmsSetDeadProperty fails tables serialno pr
  | .delete fails serialno nsId name =>
      dbmsDelDeadProperty fails tables serialno nsId name
  | .copy fails srcId destId => sabridgeCopyDeadProps fails tables srcId destId

def after (tables : PropertyTables) (call : Call) : PropertyTables :=
  (call.outcome tables).1

/-- The call is about the property, or replaces all of its resource. -/
def Call.Touches (serialno nsId : Id) (name : Text) : Call → Prop
  | .set _ resourceId pr =>
      (resourceId, pr.nsId, pr.name.text) = (serialno, nsId, name)
  | .delete _ resourceId namespaceId other =>
      (resourceId, namespaceId, other.text) = (serialno, nsId, name)
  | .copy _ _ destId => destId = serialno

theorem isMap_after (call : Call) (isMap : IsMap tables) :
    IsMap (after tables call) := by
  cases call with
  | set fails serialno pr =>
      show IsMap (dbmsSetDeadProperty fails tables serialno pr).1
      rcases dbmsSetDeadProperty_cases fails tables serialno pr with
        ⟨-, same⟩ | ⟨-, isSet⟩
      · rw [same]
        exact isMap
      · exact isSet.isMap isMap
  | delete fails serialno nsId name =>
      show IsMap (dbmsDelDeadProperty fails tables serialno nsId name).1
      rcases dbmsDelDeadProperty_cases fails tables serialno nsId name with
        same | deleted
      · rw [same]
        exact isMap
      · rw [deleted]
        exact isMap_delete isMap _
  | copy fails srcId destId =>
      show IsMap (sabridgeCopyDeadProps fails tables srcId destId).1
      rcases sabridgeCopyDeadProps_cases fails tables srcId destId with
        ⟨-, same⟩ | ⟨-, cleared⟩ | ⟨-, isCopy⟩
      · rw [same]
        exact isMap
      · rw [cleared]
        exact isMap_delete isMap _
      · exact isCopy.isMap isMap

/-- A call changes no row that it is not about. -/
theorem mem_after_iff
    {call : Call}
    (untouched : ¬ call.Touches row.resourceId row.namespaceId row.name) :
    row ∈ (after tables call).properties ↔ row ∈ tables.properties := by
  cases call with
  | set fails serialno pr =>
      show row ∈ (dbmsSetDeadProperty fails tables serialno pr).1.properties ↔ _
      rcases dbmsSetDeadProperty_cases fails tables serialno pr with
        ⟨-, same⟩ | ⟨-, isSet⟩
      · rw [same]
      · exact isSet.of_other_key fun same => untouched same.symm
  | delete fails serialno nsId name =>
      show row ∈ (dbmsDelDeadProperty fails tables serialno nsId
        name).1.properties ↔ _
      rcases dbmsDelDeadProperty_cases fails tables serialno nsId name with
        same | deleted
      · rw [same]
      · have kept : row.hasKey serialno nsId name.text ≠ true :=
          fun same => untouched (hasKey_iff.mp same).symm
        rw [deleted]
        simp [PropertyTables.delete, kept]
  | copy fails srcId destId =>
      show row ∈ (sabridgeCopyDeadProps fails tables srcId
        destId).1.properties ↔ _
      have other : row.resourceId ≠ destId := fun same => untouched same.symm
      rcases sabridgeCopyDeadProps_cases fails tables srcId destId with
        ⟨-, same⟩ | ⟨-, cleared⟩ | ⟨-, isCopy⟩
      · rw [same]
      · rw [cleared, mem_cleared, and_iff_left other]
      · exact isCopy.of_other_resource other

theorem throughout_isMap (isMap : IsMap tables) (calls : List Call) :
    Runs.Throughout after IsMap tables calls := by
  induction calls generalizing tables with
  | nil => exact isMap
  | cons call calls induction =>
      exact ⟨isMap, induction (isMap_after call isMap)⟩

theorem mem_run_iff
    {calls : List Call}
    (untouched : ∀ call ∈ calls,
      ¬ call.Touches row.resourceId row.namespaceId row.name) :
    row ∈ (calls.foldl after tables).properties ↔ row ∈ tables.properties := by
  induction calls generalizing tables with
  | nil => exact Iff.rfl
  | cons call calls induction =>
      rw [List.forall_mem_cons] at untouched
      rw [List.foldl_cons, induction untouched.2, mem_after_iff untouched.1]

/-- A set that succeeded is read as long as nothing touches its property. -/
theorem lists_after_set
    {later : List Call}
    (success : (dbmsSetDeadProperty fails tables serialno pr).2 = none)
    (untouched : ∀ call ∈ later,
      ¬ call.Touches serialno pr.nsId pr.name.text) :
    Lists
      (dbmsFillDeadProperty
        (later.foldl after (after tables (.set fails serialno pr))) serialno [])
      pr.nsId pr.name.text pr.xmlinfo pr.value := by
  have isSet : IsSet tables (after tables (.set fails serialno pr))
      serialno pr := by
    rcases dbmsSetDeadProperty_cases fails tables serialno pr with
      ⟨failed, -⟩ | ⟨-, isSet⟩
    · exact (failed success).elim
    · exact isSet
  have kept : ∀ row : Property,
      key row = (serialno, pr.nsId, pr.name.text) →
        (row ∈ (later.foldl after
            (after tables (.set fails serialno pr))).properties ↔
          row ∈ (after tables (.set fails serialno pr)).properties) := by
    intro row same
    rcases Prod.mk.inj same with ⟨resource, rest⟩
    rcases Prod.mk.inj rest with ⟨namespaces, names⟩
    apply mem_run_iff
    rw [resource, namespaces, names]
    exact untouched
  rcases isSet.of_key with ⟨⟨row, member, same⟩, only⟩
  apply lists_of_rows
  · exact ⟨row, (kept row same).mpr member, same⟩
  · intro row member same
    exact only row ((kept row same).mp member) same

/--
In every run from a table that is a map, every state is one; after a set that
succeeded, its texts are read until the property is touched again; and after a
copy that succeeded the destination has exactly the properties of another
source, while the rows of all other resources are the same.
-/
theorem run_isMap (isMap : IsMap tables) (calls : List Call) :
    Runs.Throughout after IsMap tables calls ∧
      (∀ before fails serialno pr later,
        calls = before ++ .set fails serialno pr :: later →
          (dbmsSetDeadProperty fails (before.foldl after tables)
            serialno pr).2 = none →
          (∀ call ∈ later, ¬ call.Touches serialno pr.nsId pr.name.text) →
            Lists
              (dbmsFillDeadProperty (calls.foldl after tables) serialno [])
              pr.nsId pr.name.text pr.xmlinfo pr.value) ∧
      ∀ before fails srcId destId,
        calls = before ++ [.copy fails srcId destId] →
          (sabridgeCopyDeadProps fails (before.foldl after tables)
            srcId destId).2 = none →
          (srcId ≠ destId →
            propertiesOf (calls.foldl after tables) destId =
              propertiesOf (calls.foldl after tables) srcId) ∧
            ∀ row : Property, row.resourceId ≠ destId →
              (row ∈ (calls.foldl after tables).properties ↔
                row ∈ (before.foldl after tables).properties) := by
  refine ⟨throughout_isMap isMap calls, ?_, ?_⟩
  · rintro before fails serialno pr later rfl success untouched
    rw [List.foldl_append, List.foldl_cons]
    exact lists_after_set success untouched
  · rintro before fails srcId destId rfl success
    rw [List.foldl_append, List.foldl_cons, List.foldl_nil]
    have isCopy : IsCopy (before.foldl after tables)
        (after (before.foldl after tables) (.copy fails srcId destId))
        srcId destId := by
      rcases sabridgeCopyDeadProps_cases fails (before.foldl after tables)
        srcId destId with ⟨failed, -⟩ | ⟨failed, -⟩ | ⟨-, isCopy⟩
      · exact (failed success).elim
      · exact (failed success).elim
      · exact isCopy
    constructor
    · intro different
      rw [isCopy.propertiesOf_eq different]
      ext property
      constructor
      · rintro ⟨row, member, isSource, rfl⟩
        refine ⟨row, ?_, isSource, rfl⟩
        exact (isCopy.of_other_resource (isSource ▸ different)).mpr member
      · rintro ⟨row, member, isSource, rfl⟩
        refine ⟨row, ?_, isSource, rfl⟩
        exact (isCopy.of_other_resource (isSource ▸ different)).mp member
    · intro row other
      exact isCopy.of_other_resource other

/-- Two resources without properties. -/
def emptyTables : PropertyTables where
  properties := []
  nextId := 1
  namespaces := [(7, "urn:example".toList)]
  resources := [1, 2]
  namespaceKeys := by simp
  namespaceExists := nofun

def blue : DavReposProperty where
  nsId := 7
  name := ⟨"colour".toList, by simp⟩
  xmlinfo := some "<colour>".toList
  value := some "blue".toList

/-- A property is set on one resource and copied to the other. -/
theorem run_isMap_copied :
    let calls : List Call :=
      [.set (fun _ => false) 1 blue, .copy (fun _ => false) 1 2]
    Runs.Throughout after IsMap emptyTables calls ∧
      Lists (dbmsFillDeadProperty (calls.foldl after emptyTables) 1 [])
        7 "colour".toList (some "<colour>".toList) (some "blue".toList) ∧
      propertiesOf (calls.foldl after emptyTables) 2 =
        propertiesOf (calls.foldl after emptyTables) 1 := by
  intro calls
  have isMap : IsMap emptyTables := List.nodup_nil
  rcases run_isMap isMap calls with ⟨maps, reads, copies⟩
  refine ⟨maps, ?_, ?_⟩
  · apply reads [] _ 1 blue [.copy (fun _ => false) 1 2] rfl rfl
    intro call member
    rcases List.mem_singleton.mp member with rfl
    show ¬ (2 : Id) = 1
    decide
  · exact (copies [.set (fun _ => false) 1 blue] _ 1 2 rfl rfl).1 (by decide)

end Limestone.DeadProperties
