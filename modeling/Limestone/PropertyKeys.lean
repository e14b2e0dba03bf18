import Limestone.WhereText

/-!
# The keys of properties

A property goes by a key made of its name and the id of its namespace.  The
keys keep properties apart, but the property that is made of a key again is
the same only if its name has no underscore.  The from clause has an item for
each dead property that the request selects or asks for with `is-defined`.
-/

namespace Limestone.Search

open Library

variable {namespaces : NamespaceTable} {order : HashOrder} {server : Server}
  {ctx after : SearchCtx} {name other key : Text} {nsId otherId : Nat}
  {prop : PropElem} {entries : List (Text × Text)}

/-! ## From a property to its key and back -/

theorem number_segment (value : Nat) :
    Segments.IsSegment '_' (number value) :=
  ⟨Nat.toDigits_ne_nil, Nat.underscore_not_in_toDigits⟩

theorem number_injective : Function.Injective number := by
  intro value otherValue same
  have values := congrArg (Nat.ofDigitChars 10 · 0) same
  simpa [number, Nat.ofDigitChars_ten_toDigits] using values

theorem tokens_getPropKey (name : Text) (nsId : Nat) :
    Segments.tokens '_' (getPropKey name nsId) =
      Segments.tokens '_' name ++ [number nsId] := by
  rw [getPropKey, Segments.tokens_append_sep,
    Segments.tokens_segment (number_segment nsId)]

theorem getPropKey_inj :
    getPropKey name nsId = getPropKey other otherId ↔
      name = other ∧ nsId = otherId := by
  constructor
  · intro same
    have tokens := congrArg (Segments.tokens '_') same
    rw [tokens_getPropKey, tokens_getPropKey] at tokens
    have numbers := (List.append_inj' tokens rfl).2
    have ids : nsId = otherId :=
      number_injective (List.cons.inj numbers).1
    rw [ids] at same
    exact ⟨List.append_cancel_right same, ids⟩
  · rintro ⟨rfl, rfl⟩
    rfl

/-- The id of the namespace is read back from the key. -/
theorem nsId_getPropFromPropKey (name : Text) (nsId : Nat) :
    (getPropFromPropKey (getPropKey name nsId)).nsId = nsId := by
  simp [getPropFromPropKey, tokens_getPropKey, number,
    Nat.ofDigitChars_ten_toDigits]

/-- A text without quotes and backslashes. -/
def IsQuotable (text : Text) : Prop :=
  ∀ char ∈ text, char ≠ '\'' ∧ char ≠ '"' ∧ char ≠ '\\'

theorem isQuotable_getPropKey
    (quotable : IsQuotable name) (nsId : Nat) :
    IsQuotable (getPropKey name nsId) := by
  intro char member
  rw [getPropKey, List.mem_append, List.mem_cons] at member
  rcases member with inName | rfl | digit
  · exact quotable char inName
  · exact ⟨by decide, by decide, by decide⟩
  · have isDigit : char.isDigit = true :=
      Nat.isDigit_of_mem_toDigits (by decide) (Nat.le_refl 10) digit
    refine ⟨?_, ?_, ?_⟩
    · rintro rfl
      cases isDigit
    · rintro rfl
      cases isDigit
    · rintro rfl
      cases isDigit

theorem isQuotable_propKey : IsQuotable (propKey namespaces prop) :=
  isQuotable_getPropKey prop.name.plain _

/-- The name is read back from the key if it has no underscore. -/
theorem name_getPropFromPropKey_iff (nonempty : name ≠ []) :
    (getPropFromPropKey (getPropKey name nsId)).name = some name ↔
      '_' ∉ name := by
  simp only [getPropFromPropKey, tokens_getPropKey, List.dropLast_concat]
  constructor
  · intro same underscore
    split at same
    next _ => cases same
    next _ =>
        rw [← Option.some.inj same, List.mem_flatten] at underscore
        rcases underscore with ⟨token, member, inside⟩
        exact (Segments.isSegment_of_mem_tokens member).2 inside
  · intro free
    rw [Segments.tokens_segment ⟨nonempty, free⟩]
    simp

/-- The same name in the same namespace. -/
def PropElem.SameAs (prop other : PropElem) : Prop :=
  prop.name = other.name ∧ prop.ns = other.ns

theorem propKey_eq_iff {other : PropElem} :
    propKey namespaces prop = propKey namespaces other ↔ prop.SameAs other := by
  rw [propKey, propKey, getPropKey_inj, namespaces.injective.eq_iff]
  constructor
  · rintro ⟨names, sameNs⟩
    refine ⟨?_, sameNs⟩
    rcases prop with ⟨⟨text, _, _⟩, _, _⟩
    rcases other with ⟨⟨otherText, _, _⟩, _, _⟩
    rcases names with rfl
    rfl
  · rintro ⟨names, sameNs⟩
    exact ⟨congrArg XmlName.text names, sameNs⟩

/-! ## The keys that are set -/

theorem mem_keys_hashSet_some (value : Text) :
    other ∈ (hashSet entries key (some value)).map Prod.fst ↔
      key = other ∨ other ∈ entries.map Prod.fst := by
  rw [hashSet]
  split
  next known =>
      have keys : (entries.map fun entry =>
          if entry.1 = key then (key, value) else entry).map Prod.fst =
            entries.map Prod.fst := by
        rw [List.map_map]
        apply List.map_congr_left
        intro entry _
        by_cases same : entry.1 = key
        · simp [same]
        · simp [same]
      rw [keys]
      constructor
      · exact Or.inr
      · rintro (rfl | member)
        · exact known
        · exact member
  next _ =>
      rw [List.map_append, List.mem_append, or_comm]
      simp [eq_comm]

theorem mem_keys_hashSet_of_ne (value : Option Text) (different : key ≠ other) :
    other ∈ (hashSet entries key value).map Prod.fst ↔
      other ∈ entries.map Prod.fst := by
  cases value with
  | some value => simp [mem_keys_hashSet_some, different]
  | none =>
      simp only [hashSet, List.mem_map, List.mem_filter, bne_iff_ne]
      constructor
      · rintro ⟨entry, ⟨member, -⟩, same⟩
        exact ⟨entry, member, same⟩
      · rintro ⟨entry, member, rfl⟩
        exact ⟨entry, ⟨member, different.symm⟩, rfl⟩

/-- A dead property is under its key once it is set. -/
theorem mem_keys_setProp (dead : prop.isDav = false) (set : PropElem) :
    propKey namespaces prop ∈ (setProp namespaces entries set).map Prod.fst ↔
      set.SameAs prop ∨ propKey namespaces prop ∈ entries.map Prod.fst := by
  rw [setProp]
  by_cases same : set.SameAs prop
  · have alsoDead : set.isDav = false := by
      rw [PropElem.isDav, same.2]
      exact dead
    rw [propAttr, alsoDead, if_neg Bool.false_ne_true, mem_keys_hashSet_some,
      propKey_eq_iff]
  · have different : propKey namespaces set ≠ propKey namespaces prop :=
      fun keys => same (propKey_eq_iff.mp keys)
    simp [mem_keys_hashSet_of_ne _ different, same]

theorem mem_keys_setProps (dead : prop.isDav = false) (props : List PropElem) :
    propKey namespaces prop ∈
        (props.foldl (setProp namespaces) entries).map Prod.fst ↔
      (∃ set ∈ props, set.SameAs prop) ∨
        propKey namespaces prop ∈ entries.map Prod.fst := by
  induction props generalizing entries with
  | nil => simp
  | cons set props induction =>
      rw [List.foldl_cons, induction, mem_keys_setProp dead]
      rw [List.exists_mem_cons_iff, ← or_assoc,
        or_comm (b := set.SameAs prop)]

/-! ## The select element -/

theorem propMap_selectProps (props : List PropElem) (ctx : SearchCtx) :
    (props.foldl (selectProp namespaces) ctx).propMap =
      props.foldl (setProp namespaces) ctx.propMap := by
  induction props generalizing ctx with
  | nil => rfl
  | cons prop props induction => exact induction (selectProp namespaces ctx prop)

/-- The live properties leave the keys of dead ones alone. -/
theorem mem_keys_selectAllprop (dead : prop.isDav = false) :
    propKey namespaces prop ∈
        (selectAllprop order namespaces ctx).propMap.map Prod.fst ↔
      propKey namespaces prop ∈ ctx.propMap.map Prod.fst := by
  have foreign : namespaces.id "DAV:".toList ≠ namespaces.id prop.ns := by
    intro same
    have dav := namespaces.injective same
    simp [PropElem.isDav, ← dav] at dead
  unfold selectAllprop
  generalize order.arrange getLivepropMap = live
  induction live generalizing ctx with
  | nil => rfl
  | cons entry live induction =>
      rw [List.foldl_cons]
      apply induction.trans
      show _ ∈ (hashSet ctx.propMap _ (some entry.2)).map Prod.fst ↔ _
      apply mem_keys_hashSet_of_ne
      intro keys
      exact foreign (getPropKey_inj.mp keys).2

/-- The properties that are selected by name. -/
def SelectElem.props (selectElem : SelectElem) : List PropElem :=
  selectElem.prop.getD []

/-- The context with the bitmarks of the select element. -/
def selectBitmarks (selectElem : SelectElem) (ctx : SearchCtx) : SearchCtx :=
  match selectElem.bitmark with
  | none | some [] => ctx
  | some props =>
      { ctx with
        bitmarksMap := props.foldl (fun entries prop =>
          hashSet entries prop.name.text (some prop.ns)) ctx.bitmarksMap
        bitmarkSupportReq := true }

theorem parseSelect_eq_ok
    {selectElem : SelectElem}
    (selected : parseSelect order namespaces selectElem ctx = .ok after) :
    after = (if selectElem.allprop then selectAllprop order namespaces else id)
      (selectBitmarks selectElem
        (selectElem.props.foldl (selectProp namespaces) ctx)) := by
  simp only [parseSelect, bind_eq_ok, ite_error_eq_ok] at selected
  rcases selected with ⟨named, namedRead, -, marked⟩
  have names : named =
      selectElem.props.foldl (selectProp namespaces) ctx := by
    rw [SelectElem.props]
    cases listed : selectElem.prop with
    | none =>
        rw [listed] at namedRead
        exact (Except.ok.inj namedRead).symm
    | some props =>
        rw [listed] at namedRead
        cases props with
        | nil => cases namedRead
        | cons first props =>
            simp only [ite_error_eq_ok] at namedRead
            exact (Except.ok.inj namedRead.2).symm
  rw [← names, ← Except.ok.inj marked]
  split
  · rfl
  · rfl

theorem mem_keys_parseSelect
    {selectElem : SelectElem}
    (dead : prop.isDav = false)
    (selected : parseSelect order namespaces selectElem ctx = .ok after) :
    propKey namespaces prop ∈ after.propMap.map Prod.fst ↔
      (∃ set ∈ selectElem.props, set.SameAs prop) ∨
        propKey namespaces prop ∈ ctx.propMap.map Prod.fst := by
  have marked : ∀ ctx, (selectBitmarks selectElem ctx).propMap =
      ctx.propMap := by
    intro ctx
    unfold selectBitmarks
    split
    · rfl
    · rfl
    · rfl
  rw [parseSelect_eq_ok selected, ← mem_keys_setProps dead,
    ← propMap_selectProps]
  split
  · rw [mem_keys_selectAllprop dead, marked]
  · rw [id, marked]

/-- Nothing but the properties and bitmarks is changed. -/
def SelectsOnly (ctx after : SearchCtx) : Prop :=
  ∃ propMap bitmarksMap mediaPropsReq bitmarkSupportReq,
    after =
      { ctx with
        propMap := propMap
        bitmarksMap := bitmarksMap
        mediaPropsReq := mediaPropsReq
        bitmarkSupportReq := bitmarkSupportReq }

theorem SelectsOnly.refl (ctx : SearchCtx) : SelectsOnly ctx ctx :=
  ⟨_, _, _, _, rfl⟩

theorem SelectsOnly.trans
    {middle : SearchCtx}
    (first : SelectsOnly ctx middle)
    (second : SelectsOnly middle after) :
    SelectsOnly ctx after := by
  rcases first with ⟨_, _, _, _, rfl⟩
  rcases second with ⟨_, _, _, _, rfl⟩
  exact ⟨_, _, _, _, rfl⟩

theorem selectsOnly_foldl
    {α : Type*} {step : SearchCtx → α → SearchCtx}
    (only : ∀ ctx item, SelectsOnly ctx (step ctx item))
    (items : List α) (ctx : SearchCtx) :
    SelectsOnly ctx (items.foldl step ctx) := by
  induction items generalizing ctx with
  | nil => exact SelectsOnly.refl ctx
  | cons item items induction =>
      exact (only ctx item).trans (induction (step ctx item))

theorem selectsOnly_parseSelect
    {selectElem : SelectElem}
    (selected : parseSelect order namespaces selectElem ctx = .ok after) :
    SelectsOnly ctx after := by
  have named : SelectsOnly ctx
      (selectElem.props.foldl (selectProp namespaces) ctx) :=
    selectsOnly_foldl (fun _ _ => ⟨_, _, _, _, rfl⟩) _ _
  have marked : ∀ ctx, SelectsOnly ctx (selectBitmarks selectElem ctx) := by
    intro ctx
    unfold selectBitmarks
    split
    · exact SelectsOnly.refl ctx
    · exact SelectsOnly.refl ctx
    · exact ⟨_, _, _, _, rfl⟩
  rw [parseSelect_eq_ok selected]
  split
  · exact (named.trans (marked _)).trans
      (selectsOnly_foldl (fun _ _ => ⟨_, _, _, _, rfl⟩) _ _)
  · exact named.trans (marked _)

/-- The select element adds nothing to the condition. -/
theorem whereCond_parseSelect
    {selectElem : SelectElem}
    (selected : parseSelect order namespaces selectElem ctx = .ok after) :
    after.whereCond = ctx.whereCond := by
  rcases selectsOnly_parseSelect selected with ⟨_, _, _, _, rfl⟩
  rfl

/-! ## The rest of the request -/

/-- What comes after the where element leaves its text and properties alone. -/
structure KeepsWhere (ctx after : SearchCtx) : Prop where
  propMap : after.propMap = ctx.propMap
  whereCond : after.whereCond = ctx.whereCond
  media : ctx.mediaPropsReq = true → after.mediaPropsReq = true

theorem KeepsWhere.refl (ctx : SearchCtx) : KeepsWhere ctx ctx :=
  ⟨rfl, rfl, id⟩

theorem KeepsWhere.trans
    {middle : SearchCtx}
    (first : KeepsWhere ctx middle)
    (second : KeepsWhere middle after) :
    KeepsWhere ctx after :=
  ⟨second.propMap.trans first.propMap,
    second.whereCond.trans first.whereCond,
    fun required => second.media (first.media required)⟩

theorem keepsWhere_parseScope
    {scope : ScopeElem CharData}
    (parsed : parseScope server ctx scope = .ok after) :
    KeepsWhere ctx after := by
  simp only [parseScope, bind_eq_ok] at parsed
  rcases parsed with ⟨uri, -, parsed⟩
  split at parsed
  next _ => cases parsed
  next depth _ =>
      split at parsed
      next _ =>
          rcases Except.ok.inj parsed with rfl
          unfold addBitScope
          split
          · exact KeepsWhere.refl ctx
          · exact ⟨rfl, rfl, id⟩
      next _ =>
          rcases Except.ok.inj parsed with rfl
          exact ⟨rfl, rfl, id⟩

theorem keepsWhere_parseFrom
    {scopes : List (ScopeElem CharData)}
    (parsed : parseFrom server scopes ctx = .ok after) :
    KeepsWhere ctx after := by
  rw [parseFrom, ite_error_eq_ok] at parsed
  replace parsed := parsed.2
  induction scopes generalizing ctx with
  | nil =>
      rcases Except.ok.inj parsed with rfl
      exact KeepsWhere.refl ctx
  | cons scope scopes induction =>
      rw [List.foldlM_cons, bind_eq_ok] at parsed
      rcases parsed with ⟨middle, first, others⟩
      exact (keepsWhere_parseScope first).trans (induction others)

theorem keepsWhere_parseOrder
    {orderElem : OrderElem}
    (parsed : parseOrder namespaces ctx orderElem = .ok after) :
    KeepsWhere ctx after := by
  unfold parseOrder at parsed
  split at parsed
  next => cases parsed
  next =>
      rcases Except.ok.inj parsed with rfl
      exact KeepsWhere.refl ctx
  next => cases parsed
  next prop descending =>
      rcases Except.ok.inj parsed with rfl
      refine ⟨rfl, rfl, ?_⟩
      intro required
      show (ctx.mediaPropsReq || needsMedia prop) = true
      rw [required, Bool.true_or]

theorem keepsWhere_parseOrders
    {orders : List OrderElem}
    (parsed : parseOrders namespaces orders ctx = .ok after) :
    KeepsWhere ctx after := by
  induction orders generalizing ctx with
  | nil =>
      rcases Except.ok.inj parsed with rfl
      exact KeepsWhere.refl ctx
  | cons orderElem orders induction =>
      rw [parseOrders, bind_eq_ok] at parsed
      rcases parsed with ⟨middle, first, others⟩
      have comma : KeepsWhere middle (if orders = [] then middle
          else { middle with orderby := middle.orderby ++ ", ".toList }) := by
        split
        · exact KeepsWhere.refl middle
        · exact ⟨rfl, rfl, id⟩
      exact (keepsWhere_parseOrder first).trans
        (comma.trans (induction others))

theorem keepsWhere_parseOrderby
    {orders : List OrderElem}
    (parsed : parseOrderby namespaces orders ctx = .ok after) :
    KeepsWhere ctx after := by
  rw [parseOrderby, ite_error_eq_ok] at parsed
  have begun : KeepsWhere ctx { ctx with orderby := " ORDER BY ".toList } :=
    ⟨rfl, rfl, id⟩
  exact begun.trans (keepsWhere_parseOrders parsed.2)

/-- What is known of a request with a where element that is parsed. -/
theorem parseQuery_where
    {request : SearchRequest CharData} {elem : WhereElem CharData}
    (parsed : parseQuery server order request = .ok ctx)
    (present : request.whereElem = some elem) :
    ∃ selectElem selected conditioned,
      request.select = some selectElem ∧
        parseSelect order server.namespaces selectElem {} = .ok selected ∧
        parseWhere server.namespaces elem selected = .ok conditioned ∧
        KeepsWhere conditioned ctx := by
  simp only [parseQuery, bind_eq_ok, present] at parsed
  rcases parsed with ⟨selected, selectRead, conditioned, whereRead,
    located, fromRead, ordered, orderRead, done⟩
  cases selects : request.select with
  | none =>
      rw [selects] at selectRead
      cases selectRead
  | some selectElem =>
      rw [selects] at selectRead
      refine ⟨selectElem, selected, conditioned, rfl, selectRead, whereRead, ?_⟩
      have fromKeeps : KeepsWhere conditioned located := by
        split at fromRead
        next => cases fromRead
        next scopes _ => exact keepsWhere_parseFrom fromRead
      have orderKeeps : KeepsWhere located ordered := by
        split at orderRead
        next =>
            rcases Except.ok.inj orderRead with rfl
            exact ⟨rfl, rfl, id⟩
        next orders _ => exact keepsWhere_parseOrderby orderRead
      rcases Except.ok.inj done with rfl
      exact fromKeeps.trans (orderKeeps.trans ⟨rfl, rfl, id⟩)

/-- The properties that the request selects by name. -/
def SearchRequest.selected {Data : Type} (request : SearchRequest Data) :
    List PropElem :=
  (request.select.map SelectElem.props).getD []

/-- The properties for which the from clause has an item, if they are dead. -/
def SearchRequest.listed {Data : Type} (request : SearchRequest Data)
    (elem : WhereElem Data) : List PropElem :=
  request.selected ++ definedProps elem.nodes

variable {request : SearchRequest CharData} {elem : WhereElem CharData}

theorem accepted_parseQuery
    (parsed : parseQuery server order request = .ok ctx)
    (present : request.whereElem = some elem) :
    ∀ node ∈ elem.nodes, IsAccepted server.namespaces node := by
  rcases parseQuery_where parsed present with
    ⟨selectElem, selected, conditioned, -, -, whereRead, -⟩
  exact ((parseWhere_eq_ok_iff elem selected conditioned).mp whereRead).1

theorem whereCond_parseQuery
    (parsed : parseQuery server order request = .ok ctx)
    (present : request.whereElem = some elem) :
    ctx.whereCond =
      some (" ".toList ++ whereText server.namespaces elem) := by
  rcases parseQuery_where parsed present with
    ⟨selectElem, selected, conditioned, -, selectRead, whereRead, keeps⟩
  rcases (parseWhere_eq_ok_iff elem selected conditioned).mp whereRead with
    ⟨-, rfl⟩
  rw [keeps.whereCond, addWhere, whereCond_parseSelect selectRead]
  rfl

theorem media_parseQuery
    (parsed : parseQuery server order request = .ok ctx)
    (present : request.whereElem = some elem)
    (member : prop ∈ mentionedProps elem.nodes)
    (needed : needsMedia prop = true) :
    ctx.mediaPropsReq = true := by
  rcases parseQuery_where parsed present with
    ⟨selectElem, selected, conditioned, -, selectRead, whereRead, keeps⟩
  rcases (parseWhere_eq_ok_iff elem selected conditioned).mp whereRead with
    ⟨-, rfl⟩
  apply keeps.media
  show (selected.mediaPropsReq || (mentionedProps elem.nodes).any needsMedia) =
    true
  rw [List.any_eq_true.mpr ⟨prop, member, needed⟩, Bool.or_true]

theorem mem_keys_parseQuery
    (parsed : parseQuery server order request = .ok ctx)
    (present : request.whereElem = some elem)
    (dead : prop.isDav = false) :
    propKey server.namespaces prop ∈ ctx.propMap.map Prod.fst ↔
      ∃ set ∈ request.listed elem, set.SameAs prop := by
  rcases parseQuery_where parsed present with
    ⟨selectElem, selected, conditioned, selects, selectRead, whereRead, keeps⟩
  rcases (parseWhere_eq_ok_iff elem selected conditioned).mp whereRead with
    ⟨-, rfl⟩
  rw [keeps.propMap, addWhere, mem_keys_setProps dead,
    mem_keys_parseSelect dead selectRead, SearchRequest.listed,
    SearchRequest.selected, selects]
  simp only [List.map_nil, List.not_mem_nil, or_false, Option.map_some,
    Option.getD_some, List.mem_append]
  constructor
  · rintro (⟨set, member, same⟩ | ⟨set, member, same⟩)
    · exact ⟨set, Or.inr member, same⟩
    · exact ⟨set, Or.inl member, same⟩
  · rintro ⟨set, member | member, same⟩
    · exact Or.inr ⟨set, member, same⟩
    · exact Or.inl ⟨set, member, same⟩

/-! ## The items of the from clause -/

theorem resources_mem_fromItems :
    .resources ∈ fromItems order namespaces ctx := by
  simp [fromItems]

theorem media_mem_fromItems (required : ctx.mediaPropsReq = true) :
    .media ∈ fromItems order namespaces ctx := by
  simp [fromItems, required]

theorem mem_fromItems_deadProperty {keyProperty : KeyProperty} :
    .deadProperty key keyProperty ∈ fromItems order namespaces ctx ↔
      key ∈ ctx.propMap.map Prod.fst ∧
        getPropFromPropKey key = keyProperty ∧
        keyProperty.nsId ≠ namespaces.id "DAV:".toList := by
  have arranged : key ∈ ctx.propMap.map Prod.fst ↔
      key ∈ (order.arrange ctx.propMap).map Prod.fst :=
    ((order.perm ctx.propMap).map Prod.fst).mem_iff.symm
  have media : .deadProperty key keyProperty ∉
      if ctx.mediaPropsReq then [FromItem.media] else [] := by
    split
    · simp
    · simp
  have binds : FromItem.deadProperty key keyProperty ≠
      if ctx.isBitQuery then .bitBinds else .searchGraph := by
    split
    · nofun
    · nofun
  have bitmarks : .deadProperty key keyProperty ∉
      if ctx.bitmarkSupportReq then [FromItem.bitmarks] else [] := by
    split
    · simp
    · simp
  rw [arranged]
  simp only [fromItems, List.mem_append, List.mem_singleton, media, binds,
    bitmarks, List.mem_filterMap, List.mem_map, reduceCtorEq, or_false,
    false_or]
  constructor
  · rintro ⟨entry, member, found⟩
    split at found
    next _ => cases found
    next foreign =>
        rcases FromItem.deadProperty.inj (Option.some.inj found) with
          ⟨rfl, rfl⟩
        exact ⟨⟨entry, member, rfl⟩, rfl, foreign⟩
  · rintro ⟨⟨entry, member, rfl⟩, rfl, foreign⟩
    exact ⟨entry, member, if_neg foreign⟩

/-- The item that holds a dead property is there under two conditions. -/
theorem deadProperty_mem_fromItems (dead : prop.isDav = false) :
    .deadProperty (propKey namespaces prop)
        ⟨some prop.name.text, namespaces.id prop.ns⟩ ∈
          fromItems order namespaces ctx ↔
      '_' ∉ prop.name.text ∧
        propKey namespaces prop ∈ ctx.propMap.map Prod.fst := by
  have foreign : namespaces.id prop.ns ≠ namespaces.id "DAV:".toList := by
    intro same
    have dav := namespaces.injective same
    simp [PropElem.isDav, dav] at dead
  have name : (getPropFromPropKey (propKey namespaces prop)).name =
      some prop.name.text ↔ '_' ∉ prop.name.text :=
    name_getPropFromPropKey_iff prop.name.nonempty
  have nsId : (getPropFromPropKey (propKey namespaces prop)).nsId =
      namespaces.id prop.ns := nsId_getPropFromPropKey _ _
  rw [mem_fromItems_deadProperty, ← name]
  constructor
  · rintro ⟨member, same, -⟩
    exact ⟨congrArg KeyProperty.name same, member⟩
  · rintro ⟨same, member⟩
    refine ⟨member, ?_, foreign⟩
    rw [← same, ← nsId]

/-! ## A small server -/

/-- The text as a number with one digit for each character. -/
def textCode : Text → Nat
  | [] => 0
  | char :: text => textCode text * 1114112 + (char.toNat + 1)

theorem toNat_lt (char : Char) : char.toNat < 1114112 := by
  rcases char.valid with below | ⟨-, below⟩
  · exact Nat.lt_trans below (by decide)
  · exact below

theorem textCode_injective : Function.Injective textCode := by
  intro text other same
  induction text generalizing other with
  | nil =>
      cases other with
      | nil => rfl
      | cons char other =>
          rw [textCode, textCode] at same
          omega
  | cons char text induction =>
      cases other with
      | nil =>
          rw [textCode, textCode] at same
          omega
      | cons otherChar other =>
          have bound := toNat_lt char
          have otherBound := toNat_lt otherChar
          rw [textCode, textCode] at same
          have chars : char.toNat = otherChar.toNat := by omega
          have codes : textCode text = textCode other := by omega
          rw [Char.toNat_inj.mp chars, induction codes]

/-- All paths are there, and hashes keep their order. -/
def smallServer : Server where
  namespaces := ⟨textCode, textCode_injective⟩
  davXmlGetCdata := List.flatten
  requestUri := "/".toList
  isUrl := fun _ => false
  uriPath := some
  getparents := id
  resourceFromUri := fun uri => ⟨1, uri, 1⟩

def keptOrder : HashOrder :=
  ⟨id, fun _ => List.Perm.refl _⟩

/-- A request for some properties of the members of `/home`. -/
def smallRequest (selected : List PropElem) (elem : WhereElem CharData) :
    SearchRequest CharData where
  select := some ⟨some selected, none, false⟩
  whereElem := some elem
  scopes := some [⟨["/home".toList], some ["1".toList]⟩]
  orderby := none
  limit := none
  offset := none

def shape : PropElem :=
  ⟨⟨"shape".toList, by simp, by simp⟩, "urn:example".toList, false⟩

def colour : PropElem :=
  ⟨⟨"colour".toList, by simp, by simp⟩, "urn:example".toList, false⟩

end Limestone.Search
