import Limestone.DbmsProperties
import Limestone.PropertyKeys
import Mathlib.Data.Bool.AllAny

/-!
# The property that a key selects

The from clause has a subquery for every key of a dead property.  It reads the
rows of the name and namespace that the key is decoded to: those of the
property that was named, if its name has no underscore.
-/

namespace Limestone.Search

open DbmsProperties

variable {namespaces : NamespaceTable} {order : HashOrder} {ctx : SearchCtx}
  {name : XmlName} {nsId : Nat} {row : Property} {rows : List Property}

/-- The condition of the subquery; `%s` of NULL is `(null)`. -/
def KeyProperty.selects (prop : KeyProperty) (row : Property) : Bool :=
  row.name == prop.name.getD "(null)".toList && row.namespaceId == prop.nsId

/-- The rows of `SELECT resource_id, value FROM properties WHERE ...`. -/
def KeyProperty.subquery (prop : KeyProperty) (rows : List Property) :
    List (Id × Text) :=
  (rows.filter prop.selects).map fun row => (row.resourceId, row.value)

/-- The row says something of the property with the name in the namespace. -/
def IsOfProperty (name : XmlName) (nsId : Nat) (row : Property) : Prop :=
  row.name = name.text ∧ row.namespaceId = nsId

instance : Decidable (IsOfProperty name nsId row) :=
  inferInstanceAs (Decidable (_ ∧ _))

/-- What resources have for the property. -/
def propertyValues (name : XmlName) (nsId : Nat) (rows : List Property) :
    List (Id × Text) :=
  (rows.filter fun row => decide (IsOfProperty name nsId row)).map
    fun row => (row.resourceId, row.value)

/-- The key of a property stands for the property. -/
structure KeyStandsFor (name : XmlName) (nsId : Nat) : Prop where
  restored : getPropFromPropKey (getPropKey name.text nsId) =
    ⟨some name.text, nsId⟩
  distinct : ∀ (other : XmlName) (otherId : Nat),
    getPropKey other.text otherId = getPropKey name.text nsId →
      other = name ∧ otherId = nsId
  /-- Whatever is stored, and whatever else the request names. -/
  selected : ∀ namespaces order ctx keyProperty,
    .deadProperty (getPropKey name.text nsId) keyProperty ∈
        fromItems order namespaces ctx →
      ∀ rows : List Property,
        keyProperty.subquery rows = propertyValues name nsId rows

theorem selects_iff :
    KeyProperty.selects ⟨some name.text, nsId⟩ row = true ↔
      IsOfProperty name nsId row := by
  simp [KeyProperty.selects, IsOfProperty]

theorem subquery_eq_propertyValues (rows : List Property) :
    KeyProperty.subquery ⟨some name.text, nsId⟩ rows =
      propertyValues name nsId rows := by
  have conditions : ∀ row : Property,
      KeyProperty.selects ⟨some name.text, nsId⟩ row =
        decide (IsOfProperty name nsId row) := by
    intro row
    rw [Bool.eq_iff_iff, selects_iff, decide_eq_true_iff]
  rw [KeyProperty.subquery, propertyValues]
  congr 1
  apply List.filter_congr
  intro row _
  exact conditions row

/-- Two properties with one key are the same. -/
theorem eq_of_getPropKey_eq
    {other : XmlName} {otherId : Nat}
    (same : getPropKey other.text otherId = getPropKey name.text nsId) :
    other = name ∧ otherId = nsId := by
  rcases getPropKey_inj.mp same with ⟨names, ids⟩
  exact ⟨XmlName.eq_iff.mpr names, ids⟩

/-- The property is restored from its key if there is no underscore in it. -/
theorem getPropFromPropKey_eq_iff :
    getPropFromPropKey (getPropKey name.text nsId) = ⟨some name.text, nsId⟩ ↔
      '_' ∉ name.text := by
  have nameRestored :
      (getPropFromPropKey (getPropKey name.text nsId)).name = some name.text ↔
        '_' ∉ name.text :=
    name_getPropFromPropKey_iff name.nonempty
  rw [← nameRestored]
  constructor
  · intro restored
    exact congrArg KeyProperty.name restored
  · intro named
    have id := nsId_getPropFromPropKey name.text nsId
    rcases found : getPropFromPropKey (getPropKey name.text nsId) with
      ⟨foundName, foundId⟩
    rw [found] at named id
    rw [← named, ← id]

/-- A key stands for its property if the name has no underscore. -/
theorem keyStandsFor_iff (name : XmlName) (nsId : Nat) :
    KeyStandsFor name nsId ↔ '_' ∉ name.text := by
  constructor
  · intro stands
    exact getPropFromPropKey_eq_iff.mp stands.restored
  · intro plain
    have restored := (@getPropFromPropKey_eq_iff name nsId).mpr plain
    refine ⟨restored, fun _ _ same => eq_of_getPropKey_eq same, ?_⟩
    intro namespaces order ctx keyProperty member rows
    have decoded := (mem_fromItems_deadProperty.mp member).2.1
    rw [← decoded, restored]
    exact subquery_eq_propertyValues rows

/-- The name of a property with an underscore in it. -/
def firstName : XmlName :=
  ⟨"first_name".toList, by decide,
    List.all_iff_forall_prop.mp (by decide)⟩

theorem not_keyStandsFor :
    ¬ ∀ (name : XmlName) (nsId : Nat), KeyStandsFor name nsId := by
  intro stands
  have restored := (stands firstName 7).restored
  have decoded : getPropFromPropKey (getPropKey firstName.text 7) =
      ⟨some "firstname".toList, 7⟩ := by decide +kernel
  rw [decoded] at restored
  exact absurd restored (by decide)

end Limestone.Search
