import Limestone.Search

/-!
# The text of a where clause

`parse_where` hands one context through all elements of the clause.  What it
does to the context in the end depends on the elements it comes to: they are
all acceptable, and their text and properties are added.
-/

namespace Limestone.Search

variable {namespaces : NamespaceTable} {Data : Type}

/-! ## What the elements mention -/

/-- The property that an element asks for with `is-defined`. -/
def WhereElem.definedProp : WhereElem Data → Option PropElem
  | .isDefined prop => some prop
  | _ => none

/-- The property that an element compares or asks for. -/
def WhereElem.mentionedProp : WhereElem Data → Option PropElem
  | .comp _ (.prop prop) _ => some prop
  | .isDefined prop => some prop
  | _ => none

def WhereElem.asksForBits : WhereElem Data → Bool
  | .isBit => true
  | _ => false

def definedProps (nodes : List (WhereElem Data)) : List PropElem :=
  nodes.filterMap WhereElem.definedProp

def mentionedProps (nodes : List (WhereElem Data)) : List PropElem :=
  nodes.filterMap WhereElem.mentionedProp

/-- The property is put under its key. -/
def setProp (namespaces : NamespaceTable) (propMap : List (Text × Text))
    (prop : PropElem) : List (Text × Text) :=
  hashSet propMap (propKey namespaces prop) (propAttr namespaces prop)

theorem WhereElem.mem_nodes (elem : WhereElem Data) : elem ∈ elem.nodes := by
  cases elem with
  | not operands =>
      cases operands with
      | nil => exact List.mem_cons_self ..
      | cons first others => exact List.mem_cons_self ..
  | log op operands => exact List.mem_cons_self ..
  | comp op subject literal => exact List.mem_cons_self ..
  | isCollection => exact List.mem_cons_self ..
  | isBit => exact List.mem_cons_self ..
  | isDefined prop => exact List.mem_cons_self ..
  | other name => exact List.mem_cons_self ..

/-- Something holds of all elements of a connective. -/
theorem forall_nodes_log
    {holds : WhereElem Data → Prop} {op : LogOp} {first : WhereElem Data}
    {operands : List (WhereElem Data)} :
    (∀ node ∈ (WhereElem.log op (first :: operands)).nodes, holds node) ↔
      holds (.log op (first :: operands)) ∧
        (∀ node ∈ first.nodes, holds node) ∧
        ∀ node ∈ operandNodes operands, holds node := by
  rw [WhereElem.nodes, operandNodes, List.forall_mem_cons,
    List.forall_mem_append]

theorem forall_nodes_not
    {holds : WhereElem Data → Prop} {first : WhereElem Data}
    {operands : List (WhereElem Data)} :
    (∀ node ∈ (WhereElem.not (first :: operands)).nodes, holds node) ↔
      holds (.not (first :: operands)) ∧ ∀ node ∈ first.nodes, holds node := by
  rw [WhereElem.nodes, List.forall_mem_cons]

theorem forall_operandNodes
    {holds : WhereElem Data → Prop} {operand : WhereElem Data}
    {operands : List (WhereElem Data)} :
    (∀ node ∈ operandNodes (operand :: operands), holds node) ↔
      (∀ node ∈ operand.nodes, holds node) ∧
        ∀ node ∈ operandNodes operands, holds node := by
  rw [operandNodes, List.forall_mem_append]

theorem mentionedProps_log
    {op : LogOp} {first : WhereElem Data} {operands : List (WhereElem Data)} :
    mentionedProps (WhereElem.log op (first :: operands)).nodes =
      mentionedProps first.nodes ++ mentionedProps (operandNodes operands) := by
  have silent : (WhereElem.log op (first :: operands)).mentionedProp = none :=
    rfl
  rw [WhereElem.nodes, operandNodes, mentionedProps,
    List.filterMap_cons_none silent, List.filterMap_append]
  rfl

theorem mentionedProps_not
    {first : WhereElem Data} {operands : List (WhereElem Data)} :
    mentionedProps (WhereElem.not (first :: operands)).nodes =
      mentionedProps first.nodes := by
  have silent : (WhereElem.not (first :: operands)).mentionedProp = none :=
    rfl
  rw [WhereElem.nodes, mentionedProps, List.filterMap_cons_none silent]
  rfl

theorem mentionedProps_operands
    {operand : WhereElem Data} {operands : List (WhereElem Data)} :
    mentionedProps (operandNodes (operand :: operands)) =
      mentionedProps operand.nodes ++
        mentionedProps (operandNodes operands) := by
  rw [operandNodes]
  simp [mentionedProps]

/-- What is asked for with `is-defined` is mentioned. -/
theorem mem_mentionedProps_of_defined
    {nodes : List (WhereElem Data)} {prop : PropElem}
    (member : prop ∈ definedProps nodes) :
    prop ∈ mentionedProps nodes := by
  rcases List.mem_filterMap.mp member with ⟨node, inside, asked⟩
  refine List.mem_filterMap.mpr ⟨node, inside, ?_⟩
  cases node with
  | isDefined other => exact asked
  | comp op subject literal => cases asked
  | log op operands => cases asked
  | not operands => cases asked
  | isCollection => cases asked
  | isBit => cases asked
  | other name => cases asked

/-! ## What they add to the condition -/

/-- The attribute of what is compared. -/
def subjectAttr (namespaces : NamespaceTable) : Subject → Option Text
  | .bitmark _ => some "value".toList
  | .prop prop => propAttr namespaces prop

/-- The type after the attribute. -/
def typeSuffix : Option (Option Text) → Text
  | some (some type) =>
      match typeName type with
      | some name => "::".toList ++ name
      | none => []
  | _ => []

/-- The type attribute is there, with a colon. -/
def TypeIsRead : Option (Option Text) → Prop
  | none => True
  | some none => False
  | some (some type) => typeName type ≠ none

/-- A comparison with the attribute and the first piece of the literal. -/
def comparisonText (namespaces : NamespaceTable) (op : CompOp)
    (subject : Subject) (attr literal : Text) : Text :=
  match subject with
  | .bitmark prop =>
      bitmarkText (namespaces.id prop.ns) prop.name.text attr op literal
  | .prop _ => compText attr op literal

/-- The keyword between two operands. -/
def LogOp.text (op : LogOp) : Text :=
  " ".toList ++ op.name ++ " ".toList

mutual

/-- The text for an element. -/
def whereText (namespaces : NamespaceTable) : WhereElem CharData → Text
  | .comp op subject literal =>
      comparisonText namespaces op subject
        ((subjectAttr namespaces subject).getD [] ++ typeSuffix literal.typed)
        (literal.cdata.headD [])
  | .log _ [] => []
  | .log op (first :: operands) =>
      "( ".toList ++ (whereText namespaces first ++
        operandsText namespaces op operands) ++ " )".toList
  | .not [] => []
  | .not (first :: _) =>
      "( NOT ".toList ++ whereText namespaces first ++ " )".toList
  | .isCollection => "( type = 'Collection' )".toList
  | .isBit => "( type = 'Collection' )".toList
  | .isDefined prop =>
      pstrcat ["( ".toList, propAttr namespaces prop, " IS NOT NULL )".toList]
  | .other _ => []

/-- The text for the operands after the first. -/
def operandsText (namespaces : NamespaceTable) (op : LogOp) :
    List (WhereElem CharData) → Text
  | [] => []
  | operand :: operands =>
      op.text ++ whereText namespaces operand ++
        operandsText namespaces op operands

end

variable {op : LogOp} {comp : CompOp} {subject : Subject}
  {literal : LiteralElem CharData} {first operand : WhereElem CharData}
  {operands : List (WhereElem CharData)} {prop : PropElem}

theorem whereText_comp :
    whereText namespaces (.comp comp subject literal) =
      comparisonText namespaces comp subject
        ((subjectAttr namespaces subject).getD [] ++ typeSuffix literal.typed)
        (literal.cdata.headD []) :=
  rfl

theorem whereText_log :
    whereText namespaces (.log op (first :: operands)) =
      "( ".toList ++ (whereText namespaces first ++
        operandsText namespaces op operands) ++ " )".toList :=
  rfl

theorem whereText_not :
    whereText namespaces (.not (first :: operands)) =
      "( NOT ".toList ++ whereText namespaces first ++ " )".toList :=
  rfl

theorem whereText_isCollection :
    whereText namespaces .isCollection = "( type = 'Collection' )".toList :=
  rfl

theorem whereText_isBit :
    whereText namespaces .isBit = "( type = 'Collection' )".toList :=
  rfl

theorem whereText_isDefined :
    whereText namespaces (.isDefined prop) =
      pstrcat ["( ".toList, propAttr namespaces prop,
        " IS NOT NULL )".toList] :=
  rfl

theorem operandsText_nil : operandsText namespaces op [] = [] :=
  rfl

theorem operandsText_cons :
    operandsText namespaces op (operand :: operands) =
      op.text ++ whereText namespaces operand ++
        operandsText namespaces op operands :=
  rfl

/-- The context with the text and the properties of some elements. -/
def addWhere (namespaces : NamespaceTable) (nodes : List (WhereElem CharData))
    (text : Text) (ctx : SearchCtx) : SearchCtx :=
  { ctx with
    whereCond := some (ctx.whereCond.getD " ".toList ++ text)
    propMap := (definedProps nodes).foldl (setProp namespaces) ctx.propMap
    mediaPropsReq := ctx.mediaPropsReq || (mentionedProps nodes).any needsMedia
    isBitQuery := ctx.isBitQuery || nodes.any WhereElem.asksForBits }

/-- `parse_where` does not stop at the element itself. -/
def IsAccepted (namespaces : NamespaceTable) : WhereElem CharData → Prop
  | .comp _ subject literal =>
      subjectAttr namespaces subject ≠ none ∧ TypeIsRead literal.typed ∧
        literal.cdata ≠ []
  | .log _ operands => operands ≠ []
  | .not operands => operands ≠ []
  | .other _ => False
  | .isCollection | .isBit | .isDefined _ => True

variable {nodes others : List (WhereElem CharData)} {text rest : Text}
  {ctx after : SearchCtx} {elem : WhereElem CharData}

theorem appendWhere_eq (ctx : SearchCtx) (text : Text) :
    appendWhere ctx text = addWhere namespaces [] text ctx := by
  simp [appendWhere, addWhere, definedProps, mentionedProps]

/-- One part of the clause after another. -/
theorem addWhere_addWhere :
    addWhere namespaces others rest (addWhere namespaces nodes text ctx) =
      addWhere namespaces (nodes ++ others) (text ++ rest) ctx := by
  simp [addWhere, definedProps, mentionedProps, List.append_assoc,
    Bool.or_assoc]

theorem typedAttr_eq_ok_iff {attr found : Text} {typed : Option (Option Text)} :
    typedAttr attr typed = .ok found ↔
      TypeIsRead typed ∧ found = attr ++ typeSuffix typed := by
  rcases typed with _ | _ | type
  · simp [typedAttr, TypeIsRead, typeSuffix, eq_comm]
  · simp [typedAttr, TypeIsRead]
  · cases named : typeName type with
    | none => simp [typedAttr, TypeIsRead, named]
    | some name =>
        simp [typedAttr, TypeIsRead, typeSuffix, named, eq_comm]

theorem addWhere_singleton (text : Text) :
    addWhere namespaces [elem] text ctx =
      appendWhere
        { ctx with
          propMap := elem.definedProp.toList.foldl (setProp namespaces)
            ctx.propMap
          mediaPropsReq := ctx.mediaPropsReq ||
            elem.mentionedProp.any needsMedia
          isBitQuery := ctx.isBitQuery || elem.asksForBits } text := by
  cases defined : elem.definedProp
  all_goals
    cases mentioned : elem.mentionedProp
    all_goals
      simp [appendWhere, addWhere, definedProps, mentionedProps, defined,
        mentioned]

/-- An element that only adds its text. -/
theorem addWhere_silent
    (defined : elem.definedProp = none)
    (mentioned : elem.mentionedProp = none)
    (bits : elem.asksForBits = false)
    (text : Text) :
    addWhere namespaces [elem] text ctx = appendWhere ctx text := by
  simp [addWhere_singleton, defined, mentioned, bits]

theorem parseCompOps_eq_ok_iff :
    parseCompOps namespaces comp subject literal ctx = .ok after ↔
      IsAccepted namespaces (.comp comp subject literal) ∧
        after = addWhere namespaces [.comp comp subject literal]
          (whereText namespaces (.comp comp subject literal)) ctx := by
  rcases literal with ⟨pieces, typed⟩
  rw [whereText_comp]
  cases subject with
  | bitmark prop =>
      rw [addWhere_silent rfl rfl rfl]
      cases pieces with
      | nil => simp [parseCompOps, IsAccepted, bind_eq_ok]
      | cons text pieces =>
          simp only [parseCompOps, bind_eq_ok, typedAttr_eq_ok_iff, IsAccepted]
          constructor
          · rintro ⟨attr, ⟨read, rfl⟩, added⟩
            rcases Except.ok.inj added with rfl
            exact ⟨⟨Option.some_ne_none _, read, List.cons_ne_nil _ _⟩, rfl⟩
          · rintro ⟨⟨_, read, _⟩, rfl⟩
            exact ⟨_, ⟨read, rfl⟩, rfl⟩
  | prop prop =>
      have added : ∀ text, addWhere namespaces
          [.comp comp (.prop prop) ⟨pieces, typed⟩] text ctx =
            appendWhere (propAttrLookup namespaces prop ctx).2 text := by
        intro text
        rw [addWhere_singleton]
        simp [WhereElem.definedProp, WhereElem.mentionedProp,
          WhereElem.asksForBits, propAttrLookup]
      rw [added]
      cases known : propAttr namespaces prop with
      | none =>
          simp [parseCompOps, propAttrLookup, known, IsAccepted, subjectAttr]
      | some attr =>
          cases pieces with
          | nil =>
              simp [parseCompOps, propAttrLookup, known, IsAccepted, bind_eq_ok]
          | cons text pieces =>
              simp only [parseCompOps, propAttrLookup, known, bind_eq_ok,
                typedAttr_eq_ok_iff, IsAccepted, subjectAttr]
              constructor
              · rintro ⟨attr, ⟨read, rfl⟩, added⟩
                rcases Except.ok.inj added with rfl
                exact ⟨⟨Option.some_ne_none _, read, List.cons_ne_nil _ _⟩, rfl⟩
              · rintro ⟨⟨_, read, _⟩, rfl⟩
                exact ⟨_, ⟨read, rfl⟩, rfl⟩

theorem parseIsDefined_eq (prop : PropElem) :
    parseIsDefined namespaces prop ctx =
      addWhere namespaces [.isDefined prop]
        (whereText namespaces (.isDefined prop)) ctx := by
  rw [addWhere_singleton, whereText_isDefined]
  simp [parseIsDefined, propAttrLookup, WhereElem.definedProp,
    WhereElem.mentionedProp, WhereElem.asksForBits, setProp]

/-- What a connective is parsed to once its operands are. -/
theorem enclosed_eq
    {opening middle closing : Text}
    (silent : elem.definedProp = none ∧ elem.mentionedProp = none ∧
      elem.asksForBits = false) :
    appendWhere (addWhere namespaces nodes middle (appendWhere ctx opening))
        closing =
      addWhere namespaces (elem :: nodes) (opening ++ middle ++ closing)
        ctx := by
  rcases silent with ⟨defined, mentioned, bits⟩
  rw [appendWhere_eq, ← addWhere_silent defined mentioned bits,
    addWhere_addWhere, addWhere_addWhere]
  simp

mutual

/-- All elements are accepted, and then their texts are added. -/
theorem parseWhere_eq_ok_iff :
    ∀ (elem : WhereElem CharData) (ctx after : SearchCtx),
      parseWhere namespaces elem ctx = .ok after ↔
        (∀ node ∈ elem.nodes, IsAccepted namespaces node) ∧
          after = addWhere namespaces elem.nodes
            (whereText namespaces elem) ctx
  | .comp op subject literal, ctx, after => by
      rw [parseWhere, parseCompOps_eq_ok_iff]
      simp [WhereElem.nodes]
  | .log op [], ctx, after => by
      simp [parseWhere, WhereElem.nodes, operandNodes, IsAccepted]
  | .log op (first :: operands), ctx, after => by
      simp only [parseWhere, bind_eq_ok, parseWhere_eq_ok_iff first]
      rw [whereText_log, WhereElem.nodes, operandNodes,
        ← enclosed_eq ⟨rfl, rfl, rfl⟩, ← addWhere_addWhere]
      simp only [List.forall_mem_cons, List.forall_mem_append, IsAccepted]
      constructor
      · rintro ⟨_, ⟨firstAccepted, rfl⟩, middle, parsed, closed⟩
        rcases (parseOperands_eq_ok_iff op operands _ middle rfl).mp parsed
          with ⟨accepted, rfl⟩
        rcases Except.ok.inj closed with rfl
        exact ⟨⟨nofun, firstAccepted, accepted⟩, rfl⟩
      · rintro ⟨⟨-, firstAccepted, accepted⟩, rfl⟩
        exact ⟨_, ⟨firstAccepted, rfl⟩, _,
          (parseOperands_eq_ok_iff op operands _ _ rfl).mpr ⟨accepted, rfl⟩,
          rfl⟩
  | .not [], ctx, after => by
      simp [parseWhere, WhereElem.nodes, IsAccepted]
  | .not (first :: operands), ctx, after => by
      simp only [parseWhere, bind_eq_ok, parseWhere_eq_ok_iff first]
      rw [whereText_not, WhereElem.nodes, ← enclosed_eq ⟨rfl, rfl, rfl⟩]
      simp only [List.forall_mem_cons, IsAccepted]
      constructor
      · rintro ⟨_, ⟨accepted, rfl⟩, closed⟩
        rcases Except.ok.inj closed with rfl
        exact ⟨⟨nofun, accepted⟩, rfl⟩
      · rintro ⟨⟨-, accepted⟩, rfl⟩
        exact ⟨_, ⟨accepted, rfl⟩, rfl⟩
  | .isCollection, ctx, after => by
      rw [parseWhere, whereText_isCollection, WhereElem.nodes,
        addWhere_silent rfl rfl rfl]
      · simp [IsAccepted, eq_comm]
      · nofun
      · nofun
      · nofun
  | .isBit, ctx, after => by
      rw [parseWhere, whereText_isBit, WhereElem.nodes, addWhere_singleton]
      · simp [IsAccepted, WhereElem.definedProp, WhereElem.mentionedProp,
          WhereElem.asksForBits, eq_comm]
      · nofun
      · nofun
      · nofun
  | .isDefined prop, ctx, after => by
      rw [parseWhere, parseIsDefined_eq]
      simp [WhereElem.nodes, IsAccepted, eq_comm]
  | .other name, ctx, after => by
      simp [parseWhere, WhereElem.nodes, IsAccepted]

theorem parseOperands_eq_ok_iff (op : LogOp) :
    ∀ (operands : List (WhereElem CharData)) (ctx after : SearchCtx),
      ctx.whereCond.isSome = true →
        (parseOperands namespaces op operands ctx = .ok after ↔
          (∀ node ∈ operandNodes operands, IsAccepted namespaces node) ∧
            after = addWhere namespaces (operandNodes operands)
              (operandsText namespaces op operands) ctx)
  | [], ctx, after, begun => by
      rcases Option.isSome_iff_exists.mp begun with ⟨cond, known⟩
      have unchanged : addWhere namespaces [] [] ctx = ctx := by
        have same : some (ctx.whereCond.getD " ".toList ++ []) =
            ctx.whereCond := by
          rw [known, List.append_nil]
          rfl
        rw [addWhere, same]
        simp [definedProps, mentionedProps]
      rw [operandsText_nil, operandNodes, unchanged]
      simp [parseOperands, eq_comm]
  | operand :: operands, ctx, after, begun => by
      simp only [parseOperands, bind_eq_ok, parseWhere_eq_ok_iff operand]
      rw [operandsText_cons, operandNodes, ← addWhere_addWhere,
        ← List.nil_append operand.nodes, ← addWhere_addWhere,
        ← appendWhere_eq]
      simp only [List.nil_append, List.forall_mem_append]
      constructor
      · rintro ⟨_, ⟨firstAccepted, rfl⟩, parsed⟩
        rcases (parseOperands_eq_ok_iff op operands _ after rfl).mp parsed
          with ⟨accepted, rfl⟩
        exact ⟨⟨firstAccepted, accepted⟩, rfl⟩
      · rintro ⟨⟨firstAccepted, accepted⟩, rfl⟩
        exact ⟨_, ⟨firstAccepted, rfl⟩,
          (parseOperands_eq_ok_iff op operands _ _ rfl).mpr ⟨accepted, rfl⟩⟩

end

end Limestone.Search
