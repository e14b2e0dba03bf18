import Limestone.Library.SqlScan
import Limestone.PropertyKeys

/-!
# The texts that do not depend on character data

Whatever a request says, the keys, attributes, names and the order of the
result are texts that end outside literals, quoted names and comments.
-/

namespace Limestone.Search

open Library SqlScan

variable {namespaces : NamespaceTable} {order : HashOrder} {server : Server}
  {ctx after : SearchCtx} {backslash : Bool} {prop : PropElem}
  {entries : List (Text × Text)}

/-! ## Attributes and keys -/

theorem live_entries :
    ∀ entry ∈ getLivepropMap, IsQuotable entry.1 ∧
      ∀ backslash, EndsOutside backslash entry.2 := by
  simp only [getLivepropMap, List.forall_mem_cons, List.not_mem_nil]
  refine ⟨?_, ?_, ?_, ?_, ?_, ?_, ?_, ?_, ?_, ?_, ?_, ?_, ?_, ?_,
    fun _ none => none.elim⟩
  all_goals
    constructor
    · exact SqlText.forall_mem_of_all (by decide)
    · intro backslash
      cases backslash
      · rfl
      · rfl

theorem endsOutside_propAttr
    {attr : Text}
    (known : propAttr namespaces prop = some attr) :
    EndsOutside backslash attr := by
  by_cases dav : prop.isDav = true
  · rw [propAttr, if_pos dav] at known
    rcases List.lookup_eq_some_iff.mp known with ⟨before, rest, split, -⟩
    have member : (prop.name.text, attr) ∈ getLivepropMap := by
      rw [split]
      exact List.mem_append_right before (List.mem_cons_self ..)
    exact (live_entries _ member).2 backslash
  · rw [propAttr, if_neg dav] at known
    rcases Option.some.inj known with rfl
    exact endsOutside_quoted fun char member =>
      (isQuotable_propKey char member).2.1

/-- A key that can be quoted, with an attribute that ends outside. -/
structure IsEntry (backslash : Bool) (entry : Text × Text) : Prop where
  key : IsQuotable entry.1
  attr : EndsOutside backslash entry.2

theorem mem_hashSet
    {entry : Text × Text} {key : Text} {value : Option Text}
    (member : entry ∈ hashSet entries key value) :
    entry ∈ entries ∨ ∃ text, value = some text ∧ entry = (key, text) := by
  cases value with
  | none => exact Or.inl (List.mem_filter.mp member).1
  | some text =>
      rw [hashSet] at member
      split at member
      next _ =>
          rcases List.mem_map.mp member with ⟨old, inside, rfl⟩
          split
          next _ => exact Or.inr ⟨text, rfl, rfl⟩
          next _ => exact Or.inl inside
      next _ =>
          rcases List.mem_append.mp member with old | new
          · exact Or.inl old
          · exact Or.inr ⟨text, rfl, List.mem_singleton.mp new⟩

theorem isEntry_setProp
    (isEntry : ∀ entry ∈ entries, IsEntry backslash entry) :
    ∀ entry ∈ setProp namespaces entries prop, IsEntry backslash entry := by
  intro entry member
  rcases mem_hashSet member with old | ⟨attr, known, rfl⟩
  · exact isEntry entry old
  · exact ⟨isQuotable_propKey, endsOutside_propAttr known⟩

theorem isEntry_setProps (props : List PropElem)
    (isEntry : ∀ entry ∈ entries, IsEntry backslash entry) :
    ∀ entry ∈ props.foldl (setProp namespaces) entries,
      IsEntry backslash entry := by
  induction props generalizing entries with
  | nil => exact isEntry
  | cons prop props induction => exact induction (isEntry_setProp isEntry)

/-! ## The context -/

/-- The names and texts of a context can be put into a statement. -/
structure IsClean (backslash : Bool) (ctx : SearchCtx) : Prop where
  props : ∀ entry ∈ ctx.propMap, IsEntry backslash entry
  bitmarks : ∀ entry ∈ ctx.bitmarksMap, IsQuotable entry.1
  /-- The order is a text between blanks. -/
  orderby : ∃ rest, ctx.orderby = ' ' :: rest ∧
    (run backslash start rest).mode = .ground

theorem isClean_start : IsClean backslash {} :=
  ⟨nofun, nofun, [], rfl, rfl⟩

theorem isClean_selectProps
    (namespaces : NamespaceTable) (props : List PropElem)
    (clean : IsClean backslash ctx) :
    IsClean backslash (props.foldl (selectProp namespaces) ctx) := by
  induction props generalizing ctx with
  | nil => exact clean
  | cons prop props induction =>
      exact induction
        ⟨isEntry_setProp clean.props, clean.bitmarks, clean.orderby⟩

theorem isClean_selectAllprop (clean : IsClean backslash ctx) :
    IsClean backslash (selectAllprop order namespaces ctx) := by
  have live : ∀ entry ∈ order.arrange getLivepropMap,
      IsQuotable entry.1 ∧ EndsOutside backslash entry.2 := by
    intro entry member
    have listed := (order.perm getLivepropMap).mem_iff.mp member
    rcases live_entries entry listed with ⟨key, attr⟩
    exact ⟨key, attr backslash⟩
  unfold selectAllprop
  generalize order.arrange getLivepropMap = listed at live
  induction listed generalizing ctx with
  | nil => exact clean
  | cons entry listed induction =>
      rw [List.forall_mem_cons] at live
      rw [List.foldl_cons]
      apply induction _ live.2
      refine ⟨?_, clean.bitmarks, clean.orderby⟩
      intro other member
      have set : other ∈ hashSet ctx.propMap
          (getPropKey entry.1 (namespaces.id "DAV:".toList)) (some entry.2) :=
        member
      rcases mem_hashSet set with old | ⟨attr, same, rfl⟩
      · exact clean.props other old
      · rcases Option.some.inj same with rfl
        exact ⟨isQuotable_getPropKey live.1.1 _, live.1.2⟩

theorem isClean_selectBitmarks
    (selectElem : SelectElem)
    (clean : IsClean backslash ctx) :
    IsClean backslash (selectBitmarks selectElem ctx) := by
  have named : ∀ (props : List PropElem) (entries : List (Text × Text)),
      (∀ entry ∈ entries, IsQuotable entry.1) →
        ∀ entry ∈ props.foldl (fun entries prop =>
          hashSet entries prop.name.text (some prop.ns)) entries,
            IsQuotable entry.1 := by
    intro props
    induction props with
    | nil => exact fun _ quotable => quotable
    | cons prop props induction =>
        intro entries quotable
        apply induction
        intro entry member
        rcases mem_hashSet member with old | ⟨ns, -, rfl⟩
        · exact quotable entry old
        · exact prop.name.plain
  unfold selectBitmarks
  split
  · exact clean
  · exact clean
  · exact ⟨clean.props, named _ _ clean.bitmarks, clean.orderby⟩

theorem isClean_parseSelect
    {selectElem : SelectElem}
    (clean : IsClean backslash ctx)
    (selected : parseSelect order namespaces selectElem ctx = .ok after) :
    IsClean backslash after := by
  have marked := isClean_selectBitmarks selectElem
    (isClean_selectProps namespaces selectElem.props clean)
  rw [parseSelect_eq_ok selected]
  split
  · exact isClean_selectAllprop marked
  · exact marked

theorem isClean_addWhere
    {nodes : List (WhereElem CharData)} {text : Text}
    (clean : IsClean backslash ctx) :
    IsClean backslash (addWhere namespaces nodes text ctx) :=
  ⟨isEntry_setProps _ clean.props, clean.bitmarks, clean.orderby⟩

/-- The attribute of a property after the order so far, and the direction. -/
theorem isClean_parseOrder
    {orderElem : OrderElem}
    (clean : IsClean backslash ctx)
    (parsed : parseOrder namespaces ctx orderElem = .ok after) :
    IsClean backslash after := by
  unfold parseOrder at parsed
  split at parsed
  next => cases parsed
  next =>
      rcases Except.ok.inj parsed with rfl
      exact clean
  next => cases parsed
  next prop descending =>
      rcases Except.ok.inj parsed with rfl
      rcases clean.orderby with ⟨rest, begins, grounded⟩
      refine ⟨clean.props, clean.bitmarks, ?_⟩
      have direction : ∃ word, (if descending then " DESC ".toList
          else " ASC ".toList) = ' ' :: word ∧
            (run backslash start word).mode = .ground := by
        split
        · exact ⟨"DESC ".toList, rfl, by cases backslash <;> rfl⟩
        · exact ⟨"ASC ".toList, rfl, by cases backslash <;> rfl⟩
      rcases direction with ⟨word, isWord, wordEnds⟩
      show ∃ text, pstrcat [some ctx.orderby, propAttr namespaces prop] ++ _ =
        ' ' :: text ∧ _
      rw [isWord, begins]
      cases known : propAttr namespaces prop with
      | none =>
          refine ⟨rest ++ ' ' :: word, by simp [pstrcat], ?_⟩
          rw [run_append, run_ground grounded, mode_delimited rfl rfl, wordEnds]
      | some attr =>
          refine ⟨rest ++ (attr ++ ' ' :: word), by simp [pstrcat], ?_⟩
          rw [run_append, run_ground grounded,
            (endsOutside_propAttr known).mode_append rfl, wordEnds]

/-! ## The parts of the statement -/

theorem isNumeral_number (value : Nat) : IsNumeral (number value) :=
  isNumeral_toDigits value

theorem isQuotable_getPropFromPropKey
    {key name : Text}
    (quotable : IsQuotable key)
    (found : (getPropFromPropKey key).name = some name) :
    IsQuotable name := by
  intro char member
  simp only [getPropFromPropKey] at found
  split at found
  next _ => cases found
  next _ =>
      rcases Option.some.inj found with rfl
      rcases List.mem_flatten.mp member with ⟨token, isToken, inside⟩
      have token := List.mem_of_mem_dropLast isToken
      have separator : char ≠ '_' := by
        rintro rfl
        exact (Segments.isSegment_of_mem_tokens token).2 inside
      exact quotable char
        ((Segments.mem_tokens_iff separator).mpr ⟨_, token, inside⟩)

/-- Two texts from a delimiter on, the first of which ends outside. -/
theorem alike_flatMap_self
    {α : Type*} {items : List α} {text : α → Text}
    (alike : ∀ item ∈ items, Alike backslash (text item) (text item)) :
    Alike backslash (items.flatMap text) (items.flatMap text) := by
  induction items with
  | nil => exact alike_nil
  | cons item items induction =>
      rw [List.forall_mem_cons] at alike
      rw [List.flatMap_cons]
      exact alike.1.append (induction alike.2)

/-- The parts of the text for a dead property, each from a delimiter on. -/
theorem text_deadProperty (key : Text) (prop : KeyProperty) :
    (FromItem.deadProperty key prop).text =
      " LEFT JOIN (SELECT resource_id, value AS".toList ++
        (' ' :: ('"' :: key ++ ['"']) ++
        (" FROM properties WHERE name =".toList ++
        (' ' :: ('\'' :: prop.name.getD "(null)".toList ++
          '\'' :: ' ' :: "AND namespace_id =".toList) ++
        (' ' :: number prop.nsId ++
        ([')'] ++
        (' ' :: ('"' :: (key ++ "_table".toList) ++ ['"']) ++
        (" ON".toList ++
        ' ' :: ('"' :: (key ++ "_table".toList) ++
          '"' :: '.' :: "resource_id = resources.id ".toList)))))))) := by
  have opens : " LEFT JOIN (SELECT resource_id, value AS \"".toList =
      " LEFT JOIN (SELECT resource_id, value AS".toList ++ [' ', '"'] := by
    rfl
  have selects : "\" FROM properties WHERE name = '".toList =
      '"' :: (" FROM properties WHERE name =".toList ++ [' ', '\'']) := by
    rfl
  have names : "' AND namespace_id = ".toList =
      '\'' :: ' ' :: ("AND namespace_id =".toList ++ [' ']) := by
    rfl
  have table : ") \"".toList = [')', ' ', '"'] := by
    rfl
  have joins : "_table\" ON \"".toList =
      "_table".toList ++ '"' :: (" ON".toList ++ [' ', '"']) := by
    rfl
  have column : "_table\".resource_id = resources.id ".toList =
      "_table".toList ++
        '"' :: '.' :: "resource_id = resources.id ".toList := by
    rfl
  have regroup : ∀ opens selects names joins column name number suffix : Text,
      opens ++ [' ', '"'] ++ key ++ '"' :: (selects ++ [' ', '\'']) ++ name ++
        '\'' :: ' ' :: (names ++ [' ']) ++ number ++ [')', ' ', '"'] ++ key ++
        (suffix ++ '"' :: (joins ++ [' ', '"'])) ++ key ++
        (suffix ++ '"' :: '.' :: column) =
      opens ++ (' ' :: ('"' :: key ++ ['"']) ++ (selects ++
        (' ' :: ('\'' :: name ++ '\'' :: ' ' :: names) ++ (' ' :: number ++
        ([')'] ++ (' ' :: ('"' :: (key ++ suffix) ++ ['"']) ++ (joins ++
        ' ' :: ('"' :: (key ++ suffix) ++ '"' :: '.' :: column)))))))) := by
    simp
  have unfolded : (FromItem.deadProperty key prop).text =
      " LEFT JOIN (SELECT resource_id, value AS \"".toList ++ key ++
        "\" FROM properties WHERE name = '".toList ++
        prop.name.getD "(null)".toList ++ "' AND namespace_id = ".toList ++
        number prop.nsId ++ ") \"".toList ++ key ++ "_table\" ON \"".toList ++
        key ++ "_table\".resource_id = resources.id ".toList := rfl
  rw [unfolded, opens, selects, names, table, joins, column]
  exact regroup _ _ _ _ _ _ _ _

theorem alike_deadProperty
    {key : Text} {prop : KeyProperty}
    (quotable : IsQuotable key)
    (named : ∀ name, prop.name = some name → IsQuotable name) :
    Alike backslash (FromItem.deadProperty key prop).text
      (FromItem.deadProperty key prop).text := by
  have name : ∀ char ∈ prop.name.getD "(null)".toList,
      char ≠ '\'' ∧ char ≠ '\\' := by
    cases known : prop.name with
    | none => simp
    | some name =>
        intro char member
        have plain := named name known char member
        exact ⟨plain.1, plain.2.2⟩
  have table : ∀ char ∈ key ++ "_table".toList, char ≠ '"' := by
    intro char member
    rcases List.mem_append.mp member with inKey | inSuffix
    · exact (quotable char inKey).2.1
    · rintro rfl
      simp at inSuffix
  have keyEnds : EndsOutside backslash ('"' :: key ++ ['"']) :=
    endsOutside_quoted fun char member => (quotable char member).2.1
  have tableEnds : EndsOutside backslash
      ('"' :: (key ++ "_table".toList) ++ ['"']) := endsOutside_quoted table
  have numberEnds : EndsOutside backslash (number prop.nsId) :=
    endsOutside_numeral (isNumeral_number prop.nsId)
  have nameEnds : EndsOutside backslash
      ('\'' :: prop.name.getD "(null)".toList ++
        '\'' :: ' ' :: "AND namespace_id =".toList) := by
    rw [EndsOutside, mode_literal name rfl]
    cases backslash
    · rfl
    · rfl
  have columnEnds : EndsOutside backslash
      ('"' :: (key ++ "_table".toList) ++
        '"' :: '.' :: "resource_id = resources.id ".toList) := by
    rw [EndsOutside, mode_quoted table (by decide)]
    cases backslash
    · rfl
    · rfl
  rw [text_deadProperty]
  apply Alike.append (alike_of_isClosed (by rfl))
  apply Alike.append (keyEnds.alike rfl)
  apply Alike.append (alike_of_isClosed (by rfl))
  apply Alike.append (nameEnds.alike rfl)
  apply Alike.append (numberEnds.alike rfl)
  apply Alike.append (alike_of_isClosed (by rfl))
  apply Alike.append (tableEnds.alike rfl)
  apply Alike.append (alike_of_isClosed (by rfl))
  exact columnEnds.alike rfl

set_option maxRecDepth 4000 in
theorem alike_fromItem
    {item : FromItem}
    (clean : IsClean backslash ctx)
    (member : item ∈ fromItems order namespaces ctx) :
    Alike backslash item.text item.text := by
  cases item with
  | deadProperty key prop =>
      rcases mem_fromItems_deadProperty.mp member with ⟨isKey, rfl, -⟩
      rcases List.mem_map.mp isKey with ⟨entry, listed, rfl⟩
      have key := (clean.props entry listed).key
      exact alike_deadProperty key
        fun name => isQuotable_getPropFromPropKey key
  | resources => exact alike_string (by rfl)
  | media => exact alike_string (by rfl)
  | bitBinds => exact alike_string (by rfl)
  | searchGraph => exact alike_string (by rfl)
  | bitmarks => exact alike_string (by rfl)

theorem alike_buildQueryFrom
    (order : HashOrder) (namespaces : NamespaceTable)
    (clean : IsClean backslash ctx) :
    Alike backslash (buildQueryFrom order namespaces ctx)
      (buildQueryFrom order namespaces ctx) :=
  alike_flatMap_self fun _ member => alike_fromItem clean member

/-- The attributes that are selected, or grouped by. -/
theorem alike_attrs (order : HashOrder) (clean : IsClean backslash ctx) :
    Alike backslash
      ((order.arrange ctx.propMap).flatMap fun entry =>
        ", ".toList ++ entry.2)
      ((order.arrange ctx.propMap).flatMap fun entry =>
        ", ".toList ++ entry.2) := by
  apply alike_flatMap_self
  intro entry member
  have listed := (order.perm ctx.propMap).mem_iff.mp member
  have ends : EndsOutside backslash (' ' :: entry.2) :=
    EndsOutside.cons rfl (clean.props entry listed).attr
  exact ends.alike rfl

/-- A bitmark in the list of bitmarks, without the comma after it. -/
def bitmarkItem (namespaces : NamespaceTable) (entry : Text × Text) : Text :=
  '(' :: number (namespaces.id entry.2) ++
    ',' :: ' ' :: ('\'' :: entry.1 ++ '\'' :: [')'])

theorem alike_bitmarkItem
    {entry : Text × Text}
    (quotable : IsQuotable entry.1) :
    Alike backslash (bitmarkItem namespaces entry)
      (bitmarkItem namespaces entry) := by
  have numberEnds : EndsOutside backslash (number (namespaces.id entry.2)) :=
    endsOutside_numeral (isNumeral_number _)
  have nameEnds : EndsOutside backslash
      ('\'' :: entry.1 ++ '\'' :: [')']) := by
    rw [EndsOutside, mode_literal
      (fun char member => ⟨(quotable char member).1, (quotable char member).2.2⟩)
      rfl]
    rfl
  have afterComma : EndsOutside backslash
      (' ' :: ('\'' :: entry.1 ++ '\'' :: [')'])) :=
    EndsOutside.cons rfl nameEnds
  exact (numberEnds.alike rfl).append (afterComma.alike rfl)

theorem bitmarksText_eq (entries : List (Text × Text)) :
    bitmarksText order namespaces entries =
      (bitmarksOpening ++ (order.arrange entries).flatMap fun entry =>
        bitmarkItem namespaces entry ++ [',']).dropLast ++ [')'] := by
  have items : ∀ entry : Text × Text,
      bitmarkItem namespaces entry ++ [','] =
        "(".toList ++ number (namespaces.id entry.2) ++ ", '".toList ++
          entry.1 ++ "'),".toList := by
    intro entry
    simp [bitmarkItem]
  simp only [items]
  rfl

set_option maxRecDepth 4000 in
/-- The characters of the fixed text before the list. -/
theorem exists_bitmarksOpening :
    ∃ chars, bitmarksOpening = (String.ofList chars).toList ∧
      isClosed (' ' :: chars) = true ∧
      isClosed (' ' :: (chars.dropLast ++ [')'])) = true := by
  refine ⟨_, rfl, ?_, ?_⟩
  · rfl
  · rfl

theorem alike_bitmarksText
    (order : HashOrder) (namespaces : NamespaceTable)
    (clean : IsClean backslash ctx) :
    Alike backslash
      (' ' :: bitmarksText order namespaces ctx.bitmarksMap)
      (' ' :: bitmarksText order namespaces ctx.bitmarksMap) := by
  have names : ∀ entry ∈ order.arrange ctx.bitmarksMap,
      Alike backslash (bitmarkItem namespaces entry)
        (bitmarkItem namespaces entry) := by
    intro entry member
    have listed := (order.perm ctx.bitmarksMap).mem_iff.mp member
    exact alike_bitmarkItem (clean.bitmarks entry listed)
  have comma : Alike backslash [','] [','] := alike_same rfl rfl
  have closes : Alike backslash [')'] [')'] := alike_same rfl rfl
  rcases exists_bitmarksOpening with ⟨opening, isOpening, opens, alone⟩
  rw [bitmarksText_eq, isOpening, String.toList_ofList]
  rcases List.eq_nil_or_concat (order.arrange ctx.bitmarksMap) with
    none | ⟨others, last, some⟩
  · rw [none, List.flatMap_nil, List.append_nil]
    exact alike_of_isClosed alone
  · rw [List.concat_eq_append] at some
    rw [some, List.forall_mem_append, List.forall_mem_singleton] at names
    have split : ' ' :: ((opening ++ (others ++ [last]).flatMap fun entry =>
        bitmarkItem namespaces entry ++ [',']).dropLast ++ [')']) =
          ' ' :: opening ++ ((others.flatMap fun entry =>
            bitmarkItem namespaces entry ++ [',']) ++
              (bitmarkItem namespaces last ++ [')'])) := by
      rw [List.flatMap_append, List.flatMap_singleton, ← List.append_assoc,
        ← List.append_assoc, List.dropLast_concat]
      simp
    rw [some, split]
    apply Alike.append (alike_of_isClosed opens)
    apply Alike.append
    · apply alike_flatMap_self
      intro entry member
      exact (names.1 entry member).append comma
    · exact names.2.append closes

end Limestone.Search
