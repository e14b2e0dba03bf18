import Limestone.Library.SqlText
import Limestone.QueryTexts

/-!
# The structure of the statement

Two requests that differ only in their character data are compiled to
statements with the same tokens, apart from literals and numbers, as long as
no character data ends the literal or is more than the number that it is put
for.  Nothing in the source sees to that.
-/

namespace Limestone.Search

open Library SqlScan

variable {namespaces : NamespaceTable} {order : HashOrder} {server : Server}
  {backslash : Bool} {ctx other : SearchCtx}

/-! ## Requests with the same elements -/

section Map

variable {Data Other : Type}

def LiteralElem.map (change : Data → Other) (literal : LiteralElem Data) :
    LiteralElem Other :=
  ⟨change literal.cdata, literal.typed⟩

mutual

def WhereElem.map (change : Data → Other) : WhereElem Data → WhereElem Other
  | .comp op subject literal => .comp op subject (literal.map change)
  | .log op operands => .log op (mapOperands change operands)
  | .not operands => .not (mapOperands change operands)
  | .isCollection => .isCollection
  | .isBit => .isBit
  | .isDefined prop => .isDefined prop
  | .other name => .other name

def mapOperands (change : Data → Other) :
    List (WhereElem Data) → List (WhereElem Other)
  | [] => []
  | operand :: operands => operand.map change :: mapOperands change operands

end

def ScopeElem.map (change : Data → Other) (scope : ScopeElem Data) :
    ScopeElem Other :=
  ⟨change scope.href, scope.depth⟩

/-- The request with other character data. -/
def SearchRequest.map (change : Data → Other) (request : SearchRequest Data) :
    SearchRequest Other where
  select := request.select
  whereElem := request.whereElem.map (WhereElem.map change)
  scopes := request.scopes.map (List.map (ScopeElem.map change))
  orderby := request.orderby
  limit := request.limit.map (Option.map change)
  offset := request.offset.map change

mutual

theorem nodes_map (change : Data → Other) :
    ∀ elem : WhereElem Data,
      (elem.map change).nodes = elem.nodes.map (WhereElem.map change)
  | .comp op subject literal => by simp [WhereElem.map, WhereElem.nodes]
  | .log op operands => by
      simp [WhereElem.map, WhereElem.nodes, operandNodes_map change operands]
  | .not [] => by simp [WhereElem.map, WhereElem.nodes, mapOperands]
  | .not (first :: operands) => by
      simp [WhereElem.map, WhereElem.nodes, mapOperands,
        nodes_map change first]
  | .isCollection => by simp [WhereElem.map, WhereElem.nodes]
  | .isBit => by simp [WhereElem.map, WhereElem.nodes]
  | .isDefined prop => by simp [WhereElem.map, WhereElem.nodes]
  | .other name => by simp [WhereElem.map, WhereElem.nodes]

theorem operandNodes_map (change : Data → Other) :
    ∀ operands : List (WhereElem Data),
      operandNodes (mapOperands change operands) =
        (operandNodes operands).map (WhereElem.map change)
  | [] => by simp [mapOperands, operandNodes]
  | operand :: operands => by
      simp [mapOperands, operandNodes, nodes_map change operand,
        operandNodes_map change operands]

end

end Map

/-! ## The condition on the requests -/

/-- The literal stays inside, and the type leaves the attribute outside. -/
def IsSafeNode (namespaces : NamespaceTable) (backslash : Bool) :
    WhereElem CharData → Prop
  | .comp _ subject literal =>
      StaysInside backslash (literal.cdata.headD []) ∧
        (literal.typed ≠ none → EndsOutside backslash
          ((subjectAttr namespaces subject).getD [] ++
            typeSuffix literal.typed))
  | _ => True

def SearchRequest.asksForBits {Data : Type} (request : SearchRequest Data) :
    Bool :=
  request.whereElem.any fun elem => elem.nodes.any WhereElem.asksForBits

/-- The name or URI that is put into a literal for the path of a scope. -/
def IsSafeUri (server : Server) (backslash bits : Bool) (uri : Text) : Prop :=
  if bits then
    (bitScope uri).names = true → StaysInside backslash (basename uri)
  else StaysInside backslash (server.resourceFromUri uri).uri

/-- No character data of the request ends what it is put into. -/
structure IsSafe (server : Server) (backslash : Bool)
    (request : SearchRequest CharData) : Prop where
  literals : ∀ elem ∈ request.whereElem, ∀ node ∈ elem.nodes,
    IsSafeNode server.namespaces backslash node
  limit : ∀ nresults ∈ request.limit, ∀ data ∈ nresults,
    IsNumeral (server.davXmlGetCdata data)
  offset : ∀ data ∈ request.offset, IsNumeral (server.davXmlGetCdata data)
  hrefs : ∀ scopes ∈ request.scopes, ∀ scope ∈ scopes, ∀ uri,
    scopeUri server scope.href = .ok uri →
      IsSafeUri server backslash request.asksForBits uri

/-- What the path of a scope of a query for bits adds to the where clause. -/
def bitFilter (server : Server) (uri : Text) : Bool × Option Bool :=
  ((bitScope uri).names, (bitScope uri).homeUri.map fun home =>
    (server.resourceFromUri home).serialno == 0)

/-- In a query for bits, the hrefs ask for the same filters. -/
def SameFilters (server : Server)
    (request : SearchRequest (CharData × CharData)) : Prop :=
  request.asksForBits = true →
    ∀ scopes ∈ request.scopes, ∀ scope ∈ scopes, ∀ uri otherUri,
      scopeUri server scope.href.1 = .ok uri →
        scopeUri server scope.href.2 = .ok otherUri →
          bitFilter server uri = bitFilter server otherUri

/-! ## The condition of the where clause -/

/-- Both versions of an element are accepted and safe. -/
def IsSafePair (namespaces : NamespaceTable) (backslash : Bool)
    (node : WhereElem (CharData × CharData)) : Prop :=
  IsSafeNode namespaces backslash (node.map Prod.fst) ∧
    IsSafeNode namespaces backslash (node.map Prod.snd) ∧
    IsAccepted namespaces (node.map Prod.fst)

theorem mode_operator (op : CompOp) :
    (run backslash start (op.sql ++ [' ', '\''])).mode = .literal [] := by
  cases op
  all_goals
    cases backslash
    · rfl
    · rfl

theorem mode_comparison
    {attr : Text}
    (ends : EndsOutside backslash attr) (op : CompOp) :
    (run backslash start (attr ++ ' ' :: (op.sql ++ [' ', '\'']))).mode =
      .literal [] := by
  rw [ends.mode_append rfl, mode_operator]

theorem alike_compText
    {attr literal otherLiteral : Text}
    (ends : EndsOutside backslash attr)
    (inside : StaysInside backslash literal)
    (otherInside : StaysInside backslash otherLiteral)
    (op : CompOp) :
    Alike backslash (compText attr op literal)
      (compText attr op otherLiteral) := by
  have split : ∀ literal, compText attr op literal =
      '(' :: ' ' :: (attr ++ ' ' :: (op.sql ++ [' ', '\''])) ++
        (literal ++ '\'' :: ' ' :: [')']) := by
    intro literal
    simp [compText]
  have opens : (run backslash start
      (' ' :: (attr ++ ' ' :: (op.sql ++ [' ', '\''])))).mode =
        .literal [] := by
    rw [mode_delimited rfl rfl, mode_comparison ends]
  rw [split, split]
  exact alike_literal rfl opens inside otherInside (by decide) rfl

/-- The parts of the comparison of a bitmark, each from a delimiter on. -/
theorem bitmarkText_eq
    (nsId : Nat) (name attr literal : Text) (op : CompOp) :
    bitmarkText nsId name attr op literal =
      "( resources.id IN".toList ++
        (" (SELECT resource_id FROM resource_bitmarks WHERE namespace_id =".toList ++
        (' ' :: number nsId ++ (" AND name =".toList ++
        (' ' :: ('\'' :: name ++ '\'' :: ' ' :: ("AND".toList ++
            ' ' :: (attr ++ ' ' :: (op.sql ++ [' ', '\''])))) ++
          (literal ++ '\'' :: ' ' :: [')', ')']))))) := by
  have unfolded : bitmarkText nsId name attr op literal =
      "( resources.id IN".toList ++
        " (SELECT resource_id FROM resource_bitmarks WHERE namespace_id = ".toList ++
        number nsId ++ " AND name = '".toList ++ name ++ "' AND ".toList ++
        attr ++ " ".toList ++ op.sql ++ " '".toList ++ literal ++
        "' ))".toList := rfl
  have selects : " (SELECT resource_id FROM resource_bitmarks WHERE namespace_id = ".toList =
        " (SELECT resource_id FROM resource_bitmarks WHERE namespace_id =".toList ++ [' '] := by
    rfl
  have names : " AND name = '".toList =
      " AND name =".toList ++ [' ', '\''] := by
    rfl
  have joins : "' AND ".toList = '\'' :: ' ' :: ("AND".toList ++ [' ']) := by
    rfl
  have closes : "' ))".toList = '\'' :: ' ' :: [')', ')'] := by
    rfl
  have quotes : " '".toList = [' ', '\''] := by
    rfl
  have blank : " ".toList = [' '] := by
    rfl
  have regroup : ∀ opens selects names joins number sql : Text,
      opens ++ (selects ++ [' ']) ++ number ++ (names ++ [' ', '\'']) ++ name ++
        ('\'' :: ' ' :: (joins ++ [' '])) ++ attr ++ [' '] ++ sql ++
        [' ', '\''] ++ literal ++ ('\'' :: ' ' :: [')', ')']) =
      opens ++ (selects ++ (' ' :: number ++ (names ++
        (' ' :: ('\'' :: name ++ '\'' :: ' ' :: (joins ++
          ' ' :: (attr ++ ' ' :: (sql ++ [' ', '\''])))) ++
        (literal ++ '\'' :: ' ' :: [')', ')']))))) := by
    simp
  rw [unfolded, selects, names, joins, closes, quotes, blank]
  exact regroup _ _ _ _ _ _

theorem alike_bitmarkText
    {attr literal otherLiteral : Text} {name : XmlName}
    (ends : EndsOutside backslash attr)
    (inside : StaysInside backslash literal)
    (otherInside : StaysInside backslash otherLiteral)
    (nsId : Nat) (op : CompOp) :
    Alike backslash (bitmarkText nsId name.text attr op literal)
      (bitmarkText nsId name.text attr op otherLiteral) := by
  have plain : ∀ char ∈ name.text, char ≠ '\'' ∧ char ≠ '\\' :=
    fun char member =>
      ⟨(name.plain char member).1, (name.plain char member).2.2⟩
  have word : EndsOutside backslash "AND".toList := by
    cases backslash
    · rfl
    · rfl
  have opens : (run backslash start ('\'' :: name.text ++
      '\'' :: ' ' :: ("AND".toList ++
        ' ' :: (attr ++ ' ' :: (op.sql ++ [' ', '\'']))))).mode =
          .literal [] := by
    rw [mode_literal plain rfl, word.mode_append rfl, mode_comparison ends]
  have numeral := isNumeral_number nsId
  rw [bitmarkText_eq, bitmarkText_eq]
  apply Alike.append (alike_string (by rfl))
  apply Alike.append (alike_string (by rfl))
  apply Alike.append (alike_numeral rfl numeral numeral)
  apply Alike.append (alike_string (by rfl))
  exact alike_literal rfl opens inside otherInside (by decide) rfl

/-- The attribute of an accepted comparison ends outside. -/
theorem endsOutside_attr
    {op : CompOp} {subject : Subject} {literal : LiteralElem CharData}
    (accepted : IsAccepted namespaces (.comp op subject literal))
    (safe : IsSafeNode namespaces backslash (.comp op subject literal)) :
    EndsOutside backslash ((subjectAttr namespaces subject).getD [] ++
      typeSuffix literal.typed) := by
  cases typed : literal.typed with
  | some type =>
      rw [← typed]
      apply safe.2
      rw [typed]
      nofun
  | none =>
      have suffix : typeSuffix none = [] := rfl
      rcases Option.ne_none_iff_exists'.mp accepted.1 with ⟨attr, known⟩
      rw [suffix, List.append_nil, known]
      cases subject with
      | bitmark prop =>
          rcases Option.some.inj known with rfl
          cases backslash
          · rfl
          · rfl
      | prop prop => exact endsOutside_propAttr known

theorem alike_isDefinedText (prop : PropElem) :
    Alike backslash (whereText namespaces (.isDefined prop))
      (whereText namespaces (.isDefined prop)) := by
  rw [whereText_isDefined]
  cases known : propAttr namespaces prop with
  | none =>
      have alone : pstrcat ["( ".toList, none, " IS NOT NULL )".toList] =
          "( ".toList := by
        simp [pstrcat]
      rw [alone]
      exact alike_string (by rfl)
  | some attr =>
      have split : pstrcat ["( ".toList, some attr, " IS NOT NULL )".toList] =
          '(' :: ' ' :: attr ++ " IS NOT NULL )".toList := by
        simp [pstrcat]
      have ends : EndsOutside backslash (' ' :: attr) :=
        EndsOutside.cons rfl (endsOutside_propAttr known)
      rw [split]
      exact (ends.alike rfl).append (alike_string (by rfl))

mutual

theorem alike_whereText :
    ∀ elem : WhereElem (CharData × CharData),
      (∀ node ∈ elem.nodes, IsSafePair namespaces backslash node) →
        Alike backslash (whereText namespaces (elem.map Prod.fst))
          (whereText namespaces (elem.map Prod.snd))
  | .comp op subject literal, safe => by
      rcases safe _ (WhereElem.mem_nodes _) with ⟨first, second, accepted⟩
      have ends := endsOutside_attr accepted first
      cases subject with
      | bitmark prop =>
          exact alike_bitmarkText ends first.1 second.1 _ op
      | prop prop => exact alike_compText ends first.1 second.1 op
  | .log op [], safe => alike_nil
  | .log op (first :: operands), safe => by
      rcases forall_nodes_log.mp safe with ⟨-, firstSafe, othersSafe⟩
      have opens : Alike backslash "( ".toList "( ".toList :=
        alike_string (by rfl)
      have closes : Alike backslash " )".toList " )".toList :=
        alike_string (by rfl)
      exact (opens.append ((alike_whereText first firstSafe).append
        (alike_operandsText op operands othersSafe))).append closes
  | .not [], safe => alike_nil
  | .not (first :: operands), safe => by
      have opens : Alike backslash "( NOT ".toList "( NOT ".toList :=
        alike_string (by rfl)
      have closes : Alike backslash " )".toList " )".toList :=
        alike_string (by rfl)
      exact (opens.append (alike_whereText first
        (forall_nodes_not.mp safe).2)).append closes
  | .isCollection, safe => alike_string (by rfl)
  | .isBit, safe => alike_string (by rfl)
  | .isDefined prop, safe => alike_isDefinedText prop
  | .other name, safe => alike_nil

theorem alike_operandsText (op : LogOp) :
    ∀ operands : List (WhereElem (CharData × CharData)),
      (∀ node ∈ operandNodes operands, IsSafePair namespaces backslash node) →
        Alike backslash
          (operandsText namespaces op (mapOperands Prod.fst operands))
          (operandsText namespaces op (mapOperands Prod.snd operands))
  | [], safe => alike_nil
  | operand :: operands, safe => by
      rcases forall_operandNodes.mp safe with ⟨operandSafe, othersSafe⟩
      have keyword : Alike backslash op.text op.text := by
        cases op with
        | and => exact alike_of_isClosed (by rfl)
        | or => exact alike_of_isClosed (by rfl)
      exact (keyword.append (alike_whereText operand operandSafe)).append
        (alike_operandsText op operands othersSafe)

end

/-! ## The scopes -/

theorem endsOutside_toString (value : Int) :
    EndsOutside backslash (toString value).toList := by
  rcases SqlText.toString_cases value with ⟨digits, -, text⟩ | ⟨digits, -, text⟩
  · rw [text]
    exact endsOutside_numeral (isNumeral_number digits)
  · rw [text]
    exact endsOutside_negative (isNumeral_number (digits + 1))

theorem alike_number_ids (id otherId : Nat) {char : Char}
    (delimiter : isDelimiter char = true) :
    Alike backslash (char :: number id) (char :: number otherId) :=
  alike_numeral delimiter (isNumeral_number id) (isNumeral_number otherId)

theorem alike_seedText
    {resource otherResource : ScopeResource}
    (inside : StaysInside backslash resource.uri)
    (otherInside : StaysInside backslash otherResource.uri) :
    Alike backslash (seedText resource) (seedText otherResource) := by
  have split : ∀ resource : ScopeResource, seedText resource =
      '(' :: number resource.bindId ++ ([','] ++
        (' ' :: number resource.bindId ++
        (',' :: [' ', '\''] ++ (resource.uri ++ '\'' :: ',' :: []) ++
        (' ' :: (number resource.serialno ++ "::bigint".toList) ++
        (", 0, ARRAY".toList ++ ('[' :: number resource.bindId ++
        "], false)".toList)))))) := by
    intro resource
    have unfolded : seedText resource =
        "(".toList ++ number resource.bindId ++ ", ".toList ++
          number resource.bindId ++ ", '".toList ++ resource.uri ++
          "', ".toList ++ number resource.serialno ++
          "::bigint, 0, ARRAY[".toList ++ number resource.bindId ++
          "], false)".toList := rfl
    have opens : "(".toList = ['('] := by
      rfl
    have comma : ", ".toList = [',', ' '] := by
      rfl
    have quotes : ", '".toList = [',', ' ', '\''] := by
      rfl
    have closes : "', ".toList = ['\'', ',', ' '] := by
      rfl
    have array : "::bigint, 0, ARRAY[".toList =
        "::bigint".toList ++ (", 0, ARRAY".toList ++ ['[']) := by
      rfl
    have regroup : ∀ bind uri serialno type depth cycle : Text,
        ['('] ++ bind ++ [',', ' '] ++ bind ++ [',', ' ', '\''] ++ uri ++
          ['\'', ',', ' '] ++ serialno ++ (type ++ (depth ++ ['['])) ++
          bind ++ cycle =
        '(' :: bind ++ ([','] ++ (' ' :: bind ++
          (',' :: [' ', '\''] ++ (uri ++ '\'' :: ',' :: []) ++
          (' ' :: (serialno ++ type) ++ (depth ++ ('[' :: bind ++
          cycle)))))) := by
      simp
    rw [unfolded, opens, comma, quotes, closes, array]
    exact regroup _ _ _ _ _ _
  have ids : ∀ {char : Char}, isDelimiter char = true →
      Alike backslash (char :: number resource.bindId)
        (char :: number otherResource.bindId) :=
    fun delimiter => alike_number_ids _ _ delimiter
  have serialnos : Alike backslash
      (' ' :: (number resource.serialno ++ "::bigint".toList))
      (' ' :: (number otherResource.serialno ++ "::bigint".toList)) := by
    apply alike_number rfl (isNumeral_number _) (isNumeral_number _)
    · intro next member
      rcases Option.some.inj member with rfl
      rfl
    · cases backslash
      · rfl
      · rfl
  rw [split, split]
  apply Alike.append (ids rfl)
  apply Alike.append (alike_of_isClosed (by rfl))
  apply Alike.append (ids rfl)
  apply Alike.append
  · exact alike_literal rfl rfl inside otherInside (by decide) rfl
  apply Alike.append serialnos
  apply Alike.append (alike_string (by rfl))
  apply Alike.append (ids rfl)
  exact alike_string (by rfl)

theorem condText_none (resource : ScopeResource) :
    condText resource none =
      "(sg.root_bind_id =".toList ++
        (' ' :: number resource.bindId ++ ")".toList) := by
  have unfolded : condText resource none =
      "(sg.root_bind_id = ".toList ++ number resource.bindId ++
        ")".toList := rfl
  have roots : "(sg.root_bind_id = ".toList =
      "(sg.root_bind_id =".toList ++ [' '] := by
    rfl
  rw [unfolded, roots]
  simp only [List.append_assoc, List.cons_append, List.nil_append]

theorem condText_some (resource : ScopeResource) (depth : Int) :
    condText resource (some depth) =
      "(sg.root_bind_id =".toList ++ (' ' :: number resource.bindId ++
        (" AND sg.depth <".toList ++
          (' ' :: (toString depth).toList ++ ")".toList))) := by
  have unfolded : condText resource (some depth) =
      "(sg.root_bind_id = ".toList ++ number resource.bindId ++
        " AND sg.depth < ".toList ++ (toString depth).toList ++
        ")".toList := rfl
  have roots : "(sg.root_bind_id = ".toList =
      "(sg.root_bind_id =".toList ++ [' '] := by
    rfl
  have depths : " AND sg.depth < ".toList =
      " AND sg.depth <".toList ++ [' '] := by
    rfl
  rw [unfolded, roots, depths]
  simp only [List.append_assoc, List.cons_append, List.nil_append]

theorem alike_condText
    (resource otherResource : ScopeResource) (depth : Option Int) :
    Alike backslash (condText resource depth)
      (condText otherResource depth) := by
  have ids : Alike backslash (' ' :: number resource.bindId)
      (' ' :: number otherResource.bindId) := alike_number_ids _ _ rfl
  cases depth with
  | none =>
      rw [condText_none, condText_none]
      apply Alike.append (alike_string (by rfl))
      exact ids.append (alike_string (by rfl))
  | some depth =>
      have depths : Alike backslash (' ' :: (toString depth).toList)
          (' ' :: (toString depth).toList) :=
        (endsOutside_toString depth).alike rfl
      rw [condText_some, condText_some]
      apply Alike.append (alike_string (by rfl))
      apply Alike.append ids
      apply Alike.append (alike_string (by rfl))
      exact depths.append (alike_string (by rfl))

/-! ## The contexts of both requests -/

def AreNumerals (text other : Text) : Prop :=
  IsNumeral text ∧ IsNumeral other

def StayInside (backslash : Bool) (text other : Text) : Prop :=
  StaysInside backslash text ∧ StaysInside backslash other

/-- The contexts lead to statements of the same structure. -/
structure Matches (backslash : Bool) (ctx other : SearchCtx) : Prop where
  clean : IsClean backslash ctx
  propMap : other.propMap = ctx.propMap
  bitmarksMap : other.bitmarksMap = ctx.bitmarksMap
  mediaPropsReq : other.mediaPropsReq = ctx.mediaPropsReq
  isBitQuery : other.isBitQuery = ctx.isBitQuery
  bitmarkSupportReq : other.bitmarkSupportReq = ctx.bitmarkSupportReq
  orderby : other.orderby = ctx.orderby
  whereCond : Option.Rel (Alike backslash) ctx.whereCond other.whereCond
  nresults : Option.Rel AreNumerals ctx.nresults other.nresults
  offset : Option.Rel AreNumerals ctx.offset other.offset
  b4Name : Option.Rel (StayInside backslash) ctx.b4Name other.b4Name
  b2Rid : ctx.b2Rid = 0 ↔ other.b2Rid = 0
  seed : Option.Rel (Alike backslash) ctx.searchGraphSeed other.searchGraphSeed
  cond : Option.Rel (Alike backslash) ctx.searchGraphCond other.searchGraphCond

theorem matches_parseSelect
    {selectElem : SelectElem}
    (selected : parseSelect order namespaces selectElem {} = .ok ctx) :
    Matches backslash ctx ctx := by
  have clean : IsClean backslash ctx := isClean_parseSelect isClean_start selected
  rcases selectsOnly_parseSelect selected with ⟨_, _, _, _, rfl⟩
  exact ⟨clean, rfl, rfl, rfl, rfl, rfl, rfl, .none, .none, .none, .none,
    Iff.rfl, .none, .none⟩

theorem definedProps_map {Data Other : Type} (change : Data → Other)
    (nodes : List (WhereElem Data)) :
    definedProps (nodes.map (WhereElem.map change)) = definedProps nodes := by
  have same : ∀ node : WhereElem Data,
      (node.map change).definedProp = node.definedProp := by
    intro node
    cases node
    all_goals simp [WhereElem.map, WhereElem.definedProp]
  simp [definedProps, List.filterMap_map, same]

theorem mentionedProps_map {Data Other : Type} (change : Data → Other)
    (nodes : List (WhereElem Data)) :
    mentionedProps (nodes.map (WhereElem.map change)) =
      mentionedProps nodes := by
  have same : ∀ node : WhereElem Data,
      (node.map change).mentionedProp = node.mentionedProp := by
    intro node
    cases node with
    | comp op subject literal =>
        cases subject with
        | prop prop => simp [WhereElem.map, WhereElem.mentionedProp]
        | bitmark prop => simp [WhereElem.map, WhereElem.mentionedProp]
    | log op operands => simp [WhereElem.map, WhereElem.mentionedProp]
    | not operands => simp [WhereElem.map, WhereElem.mentionedProp]
    | isCollection => simp [WhereElem.map, WhereElem.mentionedProp]
    | isBit => simp [WhereElem.map, WhereElem.mentionedProp]
    | isDefined prop => simp [WhereElem.map, WhereElem.mentionedProp]
    | other name => simp [WhereElem.map, WhereElem.mentionedProp]
  simp [mentionedProps, List.filterMap_map, same]

theorem asksForBits_map {Data Other : Type} (change : Data → Other)
    (nodes : List (WhereElem Data)) :
    (nodes.map (WhereElem.map change)).any WhereElem.asksForBits =
      nodes.any WhereElem.asksForBits := by
  have same : ∀ node : WhereElem Data,
      (node.map change).asksForBits = node.asksForBits := by
    intro node
    cases node
    all_goals simp [WhereElem.map, WhereElem.asksForBits]
  simp [List.any_map, Function.comp_def, same]

theorem rel_getD
    {related : Text → Text → Prop} {first second : Option Text}
    {fallback : Text}
    (rel : Option.Rel related first second)
    (fallbacks : related fallback fallback) :
    related (first.getD fallback) (second.getD fallback) := by
  cases rel with
  | none => exact fallbacks
  | some related => exact related

/-- The where element adds texts of the same structure. -/
theorem Matches.addWhere
    {elem : WhereElem (CharData × CharData)}
    (isMatch : Matches backslash ctx other)
    (safe : ∀ node ∈ elem.nodes, IsSafePair namespaces backslash node) :
    Matches backslash
      (addWhere namespaces (elem.map Prod.fst).nodes
        (whereText namespaces (elem.map Prod.fst)) ctx)
      (addWhere namespaces (elem.map Prod.snd).nodes
        (whereText namespaces (elem.map Prod.snd)) other) := by
  have blank : Alike backslash " ".toList " ".toList :=
    alike_string (by rfl)
  rw [nodes_map, nodes_map]
  refine ⟨isClean_addWhere isMatch.clean, ?_, isMatch.bitmarksMap, ?_, ?_,
    isMatch.bitmarkSupportReq, isMatch.orderby, .some ?_, isMatch.nresults,
    isMatch.offset, isMatch.b4Name, isMatch.b2Rid, isMatch.seed, isMatch.cond⟩
  · show (definedProps _).foldl _ other.propMap =
      (definedProps _).foldl _ ctx.propMap
    rw [definedProps_map, definedProps_map, isMatch.propMap]
  · show (other.mediaPropsReq || (mentionedProps _).any needsMedia) =
      (ctx.mediaPropsReq || (mentionedProps _).any needsMedia)
    rw [mentionedProps_map, mentionedProps_map, isMatch.mediaPropsReq]
  · show (other.isBitQuery || List.any _ WhereElem.asksForBits) =
      (ctx.isBitQuery || List.any _ WhereElem.asksForBits)
    rw [asksForBits_map, asksForBits_map, isMatch.isBitQuery]
  · exact (rel_getD isMatch.whereCond blank).append
      (alike_whereText elem safe)

theorem alike_separated
    {first second : Option Text} {separator text otherText : Text}
    (separates : Alike backslash separator separator)
    (texts : Alike backslash text otherText) :
    Option.Rel (Alike backslash) first second → Alike backslash
      (match first with
        | none => text
        | some before => before ++ separator ++ text)
      (match second with
        | none => otherText
        | some before => before ++ separator ++ otherText) := by
  intro alike
  cases alike with
  | none => exact texts
  | some alike => exact (alike.append separates).append texts

theorem Matches.addSearchGraph
    {resource otherResource : ScopeResource} (depth : Option Int)
    (isMatch : Matches backslash ctx other)
    (inside : StaysInside backslash resource.uri)
    (otherInside : StaysInside backslash otherResource.uri) :
    Matches backslash (addSearchGraph resource depth ctx)
      (addSearchGraph otherResource depth other) := by
  have comma : Alike backslash ",".toList ",".toList :=
    alike_string (by rfl)
  have junction : Alike backslash " OR ".toList " OR ".toList :=
    alike_string (by rfl)
  exact ⟨⟨isMatch.clean.props, isMatch.clean.bitmarks, isMatch.clean.orderby⟩,
    isMatch.propMap, isMatch.bitmarksMap,
    isMatch.mediaPropsReq, isMatch.isBitQuery, isMatch.bitmarkSupportReq,
    isMatch.orderby, isMatch.whereCond, isMatch.nresults, isMatch.offset,
    isMatch.b4Name, isMatch.b2Rid,
    .some (alike_separated comma (alike_seedText inside otherInside)
      isMatch.seed),
    .some (alike_separated junction
      (alike_condText resource otherResource depth) isMatch.cond)⟩

theorem Matches.addBitScope
    {uri otherUri : Text}
    (isMatch : Matches backslash ctx other)
    (filters : bitFilter server uri = bitFilter server otherUri)
    (inside : (bitScope uri).names = true →
      StaysInside backslash (basename uri))
    (otherInside : (bitScope otherUri).names = true →
      StaysInside backslash (basename otherUri)) :
    Matches backslash (addBitScope server uri ctx)
      (addBitScope server otherUri other) := by
  rcases Prod.mk.inj filters with ⟨names, homes⟩
  unfold Search.addBitScope
  cases home : (bitScope uri).homeUri with
  | none =>
      rw [home] at homes
      cases otherHome : (bitScope otherUri).homeUri with
      | none => exact isMatch
      | some otherHomeUri =>
          rw [otherHome] at homes
          cases homes
  | some homeUri =>
      rw [home] at homes
      cases otherHome : (bitScope otherUri).homeUri with
      | none =>
          rw [otherHome] at homes
          cases homes
      | some otherHomeUri =>
          rw [otherHome] at homes
          have sameZero : ((server.resourceFromUri homeUri).serialno == 0) =
              ((server.resourceFromUri otherHomeUri).serialno == 0) :=
            Option.some.inj homes
          refine ⟨⟨isMatch.clean.props, isMatch.clean.bitmarks,
            isMatch.clean.orderby⟩, isMatch.propMap, isMatch.bitmarksMap,
            isMatch.mediaPropsReq, isMatch.isBitQuery,
            isMatch.bitmarkSupportReq, isMatch.orderby, isMatch.whereCond,
            isMatch.nresults, isMatch.offset, ?_, ?_, isMatch.seed,
            isMatch.cond⟩
          · show Option.Rel (StayInside backslash)
              (if (bitScope uri).names then some (basename uri)
                else ctx.b4Name)
              (if (bitScope otherUri).names then some (basename otherUri)
                else other.b4Name)
            rw [← names]
            cases named : (bitScope uri).names with
            | true =>
                exact .some ⟨inside named, otherInside (names ▸ named)⟩
            | false => exact isMatch.b4Name
          · show (server.resourceFromUri homeUri).serialno = 0 ↔
              (server.resourceFromUri otherHomeUri).serialno = 0
            simpa using Bool.eq_iff_iff.mp sameZero

/-- One scope in both requests. -/
theorem Matches.parseScope
    {scope : ScopeElem (CharData × CharData)} {after otherAfter : SearchCtx}
    (isMatch : Matches backslash ctx other)
    (inside : ∀ uri, scopeUri server scope.href.1 = .ok uri →
      IsSafeUri server backslash ctx.isBitQuery uri)
    (otherInside : ∀ uri, scopeUri server scope.href.2 = .ok uri →
      IsSafeUri server backslash ctx.isBitQuery uri)
    (filters : ctx.isBitQuery = true → ∀ uri otherUri,
      scopeUri server scope.href.1 = .ok uri →
        scopeUri server scope.href.2 = .ok otherUri →
          bitFilter server uri = bitFilter server otherUri)
    (parsed : parseScope server ctx (scope.map Prod.fst) = .ok after)
    (otherParsed : Search.parseScope server other (scope.map Prod.snd) =
      .ok otherAfter) :
    Matches backslash after otherAfter ∧ after.isBitQuery = ctx.isBitQuery := by
  simp only [Search.parseScope, bind_eq_ok] at parsed otherParsed
  rcases parsed with ⟨uri, isUri, parsed⟩
  rcases otherParsed with ⟨otherUri, isOtherUri, otherParsed⟩
  cases depth : scope.depth with
  | none => simp [ScopeElem.map, depth] at parsed
  | some text =>
      simp only [ScopeElem.map, depth] at parsed otherParsed
      have safe := inside uri isUri
      have otherSafe := otherInside otherUri isOtherUri
      cases bits : ctx.isBitQuery with
      | true =>
          rw [isMatch.isBitQuery, bits, if_pos rfl] at otherParsed
          rw [bits, if_pos rfl] at parsed
          rcases Except.ok.inj parsed with rfl
          rcases Except.ok.inj otherParsed with rfl
          rw [IsSafeUri, bits, if_pos rfl] at safe otherSafe
          refine ⟨isMatch.addBitScope
            (filters bits uri otherUri isUri isOtherUri) safe otherSafe, ?_⟩
          unfold Search.addBitScope
          split
          · exact bits
          · exact bits
      | false =>
          rw [isMatch.isBitQuery, bits, if_neg Bool.false_ne_true]
            at otherParsed
          rw [bits, if_neg Bool.false_ne_true] at parsed
          rcases Except.ok.inj parsed with rfl
          rcases Except.ok.inj otherParsed with rfl
          rw [IsSafeUri, bits, if_neg Bool.false_ne_true] at safe otherSafe
          exact ⟨isMatch.addSearchGraph _ safe otherSafe, bits⟩

theorem Matches.parseFrom
    {scopes : List (ScopeElem (CharData × CharData))}
    {after otherAfter : SearchCtx}
    (isMatch : Matches backslash ctx other)
    (inside : ∀ scope ∈ scopes, ∀ uri,
      scopeUri server scope.href.1 = .ok uri →
        IsSafeUri server backslash ctx.isBitQuery uri)
    (otherInside : ∀ scope ∈ scopes, ∀ uri,
      scopeUri server scope.href.2 = .ok uri →
        IsSafeUri server backslash ctx.isBitQuery uri)
    (filters : ctx.isBitQuery = true → ∀ scope ∈ scopes, ∀ uri otherUri,
      scopeUri server scope.href.1 = .ok uri →
        scopeUri server scope.href.2 = .ok otherUri →
          bitFilter server uri = bitFilter server otherUri)
    (parsed : parseFrom server (scopes.map (ScopeElem.map Prod.fst)) ctx =
      .ok after)
    (otherParsed :
      Search.parseFrom server (scopes.map (ScopeElem.map Prod.snd)) other =
        .ok otherAfter) :
    Matches backslash after otherAfter := by
  rw [Search.parseFrom, ite_error_eq_ok] at parsed otherParsed
  replace parsed := parsed.2
  replace otherParsed := otherParsed.2
  induction scopes generalizing ctx other with
  | nil =>
      rcases Except.ok.inj parsed with rfl
      rcases Except.ok.inj otherParsed with rfl
      exact isMatch
  | cons scope scopes induction =>
      rw [List.map_cons, List.foldlM_cons, bind_eq_ok] at parsed otherParsed
      rcases parsed with ⟨middle, first, others⟩
      rcases otherParsed with ⟨otherMiddle, otherFirst, otherOthers⟩
      rw [List.forall_mem_cons] at inside otherInside
      rcases isMatch.parseScope inside.1 otherInside.1
        (fun bits => filters bits scope List.mem_cons_self) first otherFirst
        with ⟨middleMatches, bits⟩
      apply induction middleMatches _ _ _ others otherOthers
      · rw [bits]
        exact inside.2
      · rw [bits]
        exact otherInside.2
      · rw [bits]
        exact fun isBit scope member =>
          filters isBit scope (List.mem_cons_of_mem _ member)

theorem Matches.parseOrder
    {orderElem : OrderElem} {after otherAfter : SearchCtx}
    (isMatch : Matches backslash ctx other)
    (parsed : parseOrder namespaces ctx orderElem = .ok after)
    (otherParsed : Search.parseOrder namespaces other orderElem =
      .ok otherAfter) :
    Matches backslash after otherAfter := by
  have clean := isClean_parseOrder isMatch.clean parsed
  unfold Search.parseOrder at parsed otherParsed
  cases orderElem with
  | empty => cases parsed
  | other =>
      rcases Except.ok.inj parsed with rfl
      rcases Except.ok.inj otherParsed with rfl
      exact isMatch
  | prop prop descending =>
      cases prop with
      | none => cases parsed
      | some prop =>
          rcases Except.ok.inj parsed with rfl
          rcases Except.ok.inj otherParsed with rfl
          refine ⟨clean, isMatch.propMap, isMatch.bitmarksMap, ?_,
            isMatch.isBitQuery, isMatch.bitmarkSupportReq, ?_,
            isMatch.whereCond, isMatch.nresults, isMatch.offset,
            isMatch.b4Name, isMatch.b2Rid, isMatch.seed, isMatch.cond⟩
          · show (other.mediaPropsReq || needsMedia prop) =
              (ctx.mediaPropsReq || needsMedia prop)
            rw [isMatch.mediaPropsReq]
          · show pstrcat [some other.orderby, propAttr namespaces prop] ++ _ =
              pstrcat [some ctx.orderby, propAttr namespaces prop] ++ _
            rw [isMatch.orderby]

/-- More text after the order so far. -/
theorem Matches.withOrderby
    {text : Text}
    (isMatch : Matches backslash ctx other)
    (ordered : ∃ rest, text = ' ' :: rest ∧
      (run backslash start rest).mode = .ground) :
    Matches backslash { ctx with orderby := text }
      { other with orderby := text } :=
  ⟨⟨isMatch.clean.props, isMatch.clean.bitmarks, ordered⟩,
    isMatch.propMap, isMatch.bitmarksMap, isMatch.mediaPropsReq,
    isMatch.isBitQuery, isMatch.bitmarkSupportReq, rfl, isMatch.whereCond,
    isMatch.nresults, isMatch.offset, isMatch.b4Name, isMatch.b2Rid,
    isMatch.seed, isMatch.cond⟩

theorem Matches.parseOrders
    {orders : List OrderElem} {after otherAfter : SearchCtx}
    (isMatch : Matches backslash ctx other)
    (parsed : parseOrders namespaces orders ctx = .ok after)
    (otherParsed : Search.parseOrders namespaces orders other =
      .ok otherAfter) :
    Matches backslash after otherAfter := by
  induction orders generalizing ctx other with
  | nil =>
      rcases Except.ok.inj parsed with rfl
      rcases Except.ok.inj otherParsed with rfl
      exact isMatch
  | cons orderElem orders induction =>
      rw [Search.parseOrders, bind_eq_ok] at parsed otherParsed
      rcases parsed with ⟨middle, first, others⟩
      rcases otherParsed with ⟨otherMiddle, otherFirst, otherOthers⟩
      have middles := isMatch.parseOrder first otherFirst
      by_cases last : orders = []
      · rw [if_pos last] at others otherOthers
        exact induction middles others otherOthers
      · rw [if_neg last] at others otherOthers
        rw [middles.orderby] at otherOthers
        rcases middles.clean.orderby with ⟨rest, begins, grounded⟩
        apply induction (middles.withOrderby _) others otherOthers
        refine ⟨rest ++ ", ".toList, by simp [begins], ?_⟩
        rw [run_append, run_ground grounded]
        rfl

theorem Matches.parseOrderby
    {orders : List OrderElem} {after otherAfter : SearchCtx}
    (isMatch : Matches backslash ctx other)
    (parsed : parseOrderby namespaces orders ctx = .ok after)
    (otherParsed : Search.parseOrderby namespaces orders other =
      .ok otherAfter) :
    Matches backslash after otherAfter := by
  rw [Search.parseOrderby, ite_error_eq_ok] at parsed otherParsed
  apply (isMatch.withOrderby _).parseOrders parsed.2 otherParsed.2
  refine ⟨"ORDER BY ".toList, rfl, ?_⟩
  cases backslash
  · rfl
  · rfl

/-! ## The whole request -/

section Request

variable {request : SearchRequest (CharData × CharData)}

theorem SearchRequest.asksForBits_map
    {Data Other : Type} (change : Data → Other) (request : SearchRequest Data) :
    (request.map change).asksForBits = request.asksForBits := by
  show (request.whereElem.map (WhereElem.map change)).any _ = _
  rw [SearchRequest.asksForBits]
  cases request.whereElem with
  | none => rfl
  | some elem =>
      show (elem.map change).nodes.any _ = elem.nodes.any _
      rw [nodes_map]
      exact Search.asksForBits_map change elem.nodes

theorem isSafePair_nodes
    {elem : WhereElem (CharData × CharData)}
    (safe : ∀ node ∈ (elem.map Prod.fst).nodes,
      IsSafeNode namespaces backslash node)
    (otherSafe : ∀ node ∈ (elem.map Prod.snd).nodes,
      IsSafeNode namespaces backslash node)
    (accepted : ∀ node ∈ (elem.map Prod.fst).nodes,
      IsAccepted namespaces node) :
    ∀ node ∈ elem.nodes, IsSafePair namespaces backslash node := by
  rw [nodes_map] at safe otherSafe accepted
  intro node member
  exact ⟨safe _ (List.mem_map_of_mem member),
    otherSafe _ (List.mem_map_of_mem member),
    accepted _ (List.mem_map_of_mem member)⟩

/-- The where element in both requests, after the same select element. -/
theorem Matches.parseWhere
    {elem : WhereElem (CharData × CharData)} {after otherAfter : SearchCtx}
    (isMatch : Matches backslash ctx ctx)
    (safe : ∀ node ∈ (elem.map Prod.fst).nodes,
      IsSafeNode namespaces backslash node)
    (otherSafe : ∀ node ∈ (elem.map Prod.snd).nodes,
      IsSafeNode namespaces backslash node)
    (parsed : parseWhere namespaces (elem.map Prod.fst) ctx = .ok after)
    (otherParsed : Search.parseWhere namespaces (elem.map Prod.snd) ctx =
      .ok otherAfter) :
    Matches backslash after otherAfter ∧
      after.isBitQuery =
        (ctx.isBitQuery || elem.nodes.any WhereElem.asksForBits) := by
  rcases (parseWhere_eq_ok_iff _ _ _).mp parsed with ⟨accepted, rfl⟩
  rcases (parseWhere_eq_ok_iff _ _ _).mp otherParsed with ⟨-, rfl⟩
  refine ⟨isMatch.addWhere (isSafePair_nodes safe otherSafe accepted), ?_⟩
  show (ctx.isBitQuery || (elem.map Prod.fst).nodes.any _) = _
  rw [nodes_map, asksForBits_map]

theorem areNumerals_map
    {data : Option (CharData × CharData)}
    (isNumeral : ∀ text ∈ data.map Prod.fst,
      IsNumeral (server.davXmlGetCdata text))
    (otherIsNumeral : ∀ text ∈ data.map Prod.snd,
      IsNumeral (server.davXmlGetCdata text)) :
    Option.Rel AreNumerals ((data.map Prod.fst).map server.davXmlGetCdata)
      ((data.map Prod.snd).map server.davXmlGetCdata) := by
  cases data with
  | none => exact .none
  | some data =>
      exact .some ⟨isNumeral data.1 rfl, otherIsNumeral data.2 rfl⟩

/-- Both requests are parsed to contexts that match. -/
theorem matches_parseQuery
    (safe : IsSafe server backslash (request.map Prod.fst))
    (otherSafe : IsSafe server backslash (request.map Prod.snd))
    (filters : SameFilters server request)
    (parsed : parseQuery server order (request.map Prod.fst) = .ok ctx)
    (otherParsed : parseQuery server order (request.map Prod.snd) =
      .ok other) :
    Matches backslash ctx other := by
  simp only [parseQuery, bind_eq_ok] at parsed otherParsed
  rcases parsed with ⟨selected, selectRead, conditioned, whereRead,
    located, fromRead, ordered, orderRead, done⟩
  rcases otherParsed with ⟨otherSelected, otherSelectRead, otherConditioned,
    otherWhereRead, otherLocated, otherFromRead, otherOrdered, otherOrderRead,
    otherDone⟩
  have bits := SearchRequest.asksForBits_map Prod.fst request
  have otherBits := SearchRequest.asksForBits_map Prod.snd request
  rcases safe with ⟨literals, limits, offsets, hrefs⟩
  rcases otherSafe with ⟨otherLiterals, otherLimits, otherOffsets, otherHrefs⟩
  rw [bits] at hrefs
  rw [otherBits] at otherHrefs
  rcases Except.ok.inj (selectRead.symm.trans otherSelectRead) with rfl
  have selects : Matches backslash selected selected ∧
      selected.isBitQuery = false := by
    cases present : request.select with
    | none => simp [SearchRequest.map, present] at selectRead
    | some selectElem =>
        simp only [SearchRequest.map, present] at selectRead
        rcases selectsOnly_parseSelect selectRead with ⟨_, _, _, _, equation⟩
        exact ⟨matches_parseSelect selectRead, by rw [equation]⟩
  have conditions : Matches backslash conditioned otherConditioned ∧
      conditioned.isBitQuery = request.asksForBits := by
    rw [SearchRequest.asksForBits]
    cases present : request.whereElem with
    | none =>
        simp only [SearchRequest.map, present, Option.map_none,
          Except.ok.injEq] at whereRead otherWhereRead
        rcases whereRead with rfl
        rcases otherWhereRead with rfl
        exact selects
    | some elem =>
        simp only [SearchRequest.map, present, Option.map_some]
          at whereRead otherWhereRead literals otherLiterals
        have both := selects.1.parseWhere (literals _ rfl) (otherLiterals _ rfl)
          whereRead otherWhereRead
        rw [selects.2, Bool.false_or] at both
        exact both
  have scopes : Matches backslash located otherLocated := by
    cases present : request.scopes with
    | none => simp [SearchRequest.map, present] at fromRead
    | some scopes =>
        simp only [SearchRequest.map, present, Option.map_some]
          at fromRead otherFromRead hrefs otherHrefs
        have inside := hrefs _ rfl
        have otherInside := otherHrefs _ rfl
        rw [List.forall_mem_map] at inside otherInside
        rw [← conditions.2] at inside otherInside
        apply conditions.1.parseFrom inside otherInside _ fromRead otherFromRead
        intro isBit
        rw [conditions.2] at isBit
        exact filters isBit scopes present
  have orders : Matches backslash ordered otherOrdered := by
    cases present : request.orderby with
    | none =>
        simp only [SearchRequest.map, present, Except.ok.injEq]
          at orderRead otherOrderRead
        rcases orderRead with rfl
        rcases otherOrderRead with rfl
        exact scopes.withOrderby ⟨[], rfl, rfl⟩
    | some orders =>
        simp only [SearchRequest.map, present] at orderRead otherOrderRead
        exact scopes.parseOrderby orderRead otherOrderRead
  rcases Except.ok.inj done with rfl
  rcases Except.ok.inj otherDone with rfl
  have nresults : Option.Rel AreNumerals
      ((request.limit.map (Option.map Prod.fst)).bind
        (Option.map server.davXmlGetCdata))
      ((request.limit.map (Option.map Prod.snd)).bind
        (Option.map server.davXmlGetCdata)) := by
    cases present : request.limit with
    | none => exact .none
    | some nresults =>
        simp only [SearchRequest.map, present, Option.map_some]
          at limits otherLimits
        exact areNumerals_map (limits _ rfl) (otherLimits _ rfl)
  exact ⟨⟨orders.clean.props, orders.clean.bitmarks, orders.clean.orderby⟩,
    orders.propMap, orders.bitmarksMap, orders.mediaPropsReq,
    orders.isBitQuery, orders.bitmarkSupportReq, orders.orderby,
    orders.whereCond, nresults, areNumerals_map offsets otherOffsets,
    orders.b4Name, orders.b2Rid, orders.seed, orders.cond⟩

end Request

/-! ## The statements -/

/-- `apr_pstrcat` of texts that may be NULL in both statements. -/
theorem alike_pstrcat
    {texts others : List (Option Text)}
    (rel : List.Forall₂ (Option.Rel (Alike backslash)) texts others) :
    Alike backslash (pstrcat texts) (pstrcat others) := by
  induction rel with
  | nil => exact alike_nil
  | cons first rest induction =>
      cases first with
      | none => exact alike_nil
      | some alike => exact alike.append induction

theorem pstrcat_some (text : Text) (texts : List (Option Text)) :
    pstrcat (some text :: texts) = text ++ pstrcat texts := by
  simp [pstrcat]

/-- What `build_query_select` puts around the kind of query. -/
def selectAround (order : HashOrder) (namespaces : NamespaceTable)
    (ctx : SearchCtx) (text : Text) : Text :=
  let select :=
    if ctx.bitmarkSupportReq then
      bitmarksText order namespaces ctx.bitmarksMap ++ ") ".toList ++ text
    else text
  let select := select ++ (order.arrange ctx.propMap).flatMap fun entry =>
    ", ".toList ++ entry.2
  if ctx.bitmarkSupportReq then
    select ++ ", concat(resource_bitmarks.name || '>' || resource_bitmarks.value || '>' || '/bitmarks/' || resources.uuid || '/' || resource_bitmarks.bitmark_id || '>' )".toList
  else select

set_option maxRecDepth 8000 in
theorem exists_selectText (backslash : Bool) :
    ∃ text : SearchCtx → Text,
      (∀ order namespaces ctx, buildQuerySelect order namespaces ctx =
        selectAround order namespaces ctx (text ctx)) ∧
      ∀ ctx other, Matches backslash ctx other →
        Alike backslash (' ' :: text ctx) (' ' :: text other) := by
  refine ⟨_, fun _ _ _ => rfl, ?_⟩
  intro ctx other isMatch
  have closes : Alike backslash "))".toList "))".toList :=
    alike_string (by rfl)
  have selects : Alike backslash " SELECT search_graph.url".toList
      " SELECT search_graph.url".toList := alike_string (by rfl)
  show Alike backslash
    (' ' :: ite (ctx.isBitQuery = true) _ (pstrcat
      [some _, ctx.searchGraphSeed, some _, ctx.searchGraphCond, _, _]))
    (' ' :: ite (other.isBitQuery = true) _ (pstrcat
      [some _, other.searchGraphSeed, some _, other.searchGraphCond, _, _]))
  rw [isMatch.isBitQuery]
  split
  · exact alike_blank_string (by rfl)
  · rw [pstrcat_some, pstrcat_some]
    apply Alike.append (alike_blank_string (by rfl))
    apply alike_pstrcat
    apply List.Forall₂.cons isMatch.seed
    apply List.Forall₂.cons (.some (alike_string (by rfl)))
    apply List.Forall₂.cons isMatch.cond
    exact .cons (.some closes) (.cons (.some selects) .nil)

set_option maxRecDepth 4000 in
theorem alike_selectAround
    {text otherText : Text}
    (isMatch : Matches backslash ctx other)
    (alike : Alike backslash (' ' :: text) (' ' :: otherText)) :
    Alike backslash (' ' :: selectAround order namespaces ctx text)
      (' ' :: selectAround order namespaces other otherText) := by
  have attrs := alike_attrs order isMatch.clean
  have bitmarks := alike_bitmarksText order namespaces isMatch.clean
  have closes : Alike backslash ")".toList ")".toList :=
    alike_string (by rfl)
  have regroup : ∀ bitmarks text attrs concats : Text,
      ' ' :: (bitmarks ++ ") ".toList ++ text ++ attrs ++ concats) =
        ' ' :: bitmarks ++ (")".toList ++ (' ' :: text ++
          (attrs ++ concats))) := by
    intro bitmarks text attrs concats
    have split : ") ".toList = ")".toList ++ [' '] := by
      rfl
    rw [split]
    simp only [List.append_assoc, List.cons_append, List.nil_append]
  simp only [selectAround]
  rw [isMatch.bitmarkSupportReq, isMatch.bitmarksMap, isMatch.propMap]
  split
  · rw [regroup, regroup]
    apply Alike.append bitmarks
    apply Alike.append closes
    apply Alike.append alike
    exact attrs.append (alike_string (by rfl))
  · exact alike.append attrs

theorem alike_buildQuerySelect
    (order : HashOrder) (namespaces : NamespaceTable)
    (isMatch : Matches backslash ctx other) :
    Alike backslash (' ' :: buildQuerySelect order namespaces ctx)
      (' ' :: buildQuerySelect order namespaces other) := by
  rcases exists_selectText backslash with ⟨text, equation, alike⟩
  rw [equation, equation]
  exact alike_selectAround isMatch (alike ctx other isMatch)

/-- A text from a blank on, after a text that may be NULL. -/
theorem alike_pstrcat_two
    {before otherBefore : Option Text} {text otherText : Text}
    (rel : Option.Rel (AlikeEnded backslash) before otherBefore)
    (alike : Alike backslash (' ' :: text) (' ' :: otherText)) :
    Alike backslash (pstrcat [before, some (' ' :: text)])
      (pstrcat [otherBefore, some (' ' :: otherText)]) := by
  cases rel with
  | none => exact alike_nil
  | some ended =>
      simpa [pstrcat] using ended.append alike

/-- What the two resources of a home add is alike. -/
theorem alike_home
    {bits otherBits : Option Text}
    (isMatch : Matches backslash ctx other)
    (rel : Option.Rel (AlikeEnded backslash) bits otherBits) :
    Option.Rel (AlikeEnded backslash)
      (if ctx.b2Rid = 0 then bits
        else some (pstrcat [bits, " AND b2.resource_id = ".toList ++
          number ctx.b2Rid ++ " ".toList]))
      (if other.b2Rid = 0 then otherBits
        else some (pstrcat [otherBits, " AND b2.resource_id = ".toList ++
          number other.b2Rid ++ " ".toList])) := by
  have opening : " AND b2.resource_id = ".toList =
      ' ' :: ("AND b2.resource_id =".toList ++ [' ']) := by
    rfl
  have split : ∀ id, " AND b2.resource_id = ".toList ++ number id ++
      " ".toList =
        ' ' :: ("AND b2.resource_id =".toList ++ (' ' :: number id ++ [' '])) := by
    intro id
    rw [opening]
    simp
  have numbers : Alike backslash
      (' ' :: ("AND b2.resource_id =".toList ++
        (' ' :: number ctx.b2Rid ++ [' '])))
      (' ' :: ("AND b2.resource_id =".toList ++
        (' ' :: number other.b2Rid ++ [' ']))) := by
    apply Alike.append (alike_blank_string (by rfl))
    exact (alike_number_ids _ _ rfl).append (alike_same rfl rfl)
  by_cases zero : ctx.b2Rid = 0
  · rw [if_pos zero, if_pos (isMatch.b2Rid.mp zero)]
    exact rel
  · rw [if_neg zero, if_neg (mt isMatch.b2Rid.mpr zero), split, split]
    exact .some (alike_pstrcat_two rel numbers).ended

/-- The filter for the name of the collection of bits. -/
def namedText (home : Option Text) : Option Text → Option Text
  | none => home
  | some name =>
      some (pstrcat [home, " AND b4.name = '".toList, name, "' ".toList])

theorem alike_named
    {home otherHome name otherName : Option Text}
    (rel : Option.Rel (AlikeEnded backslash) home otherHome)
    (names : Option.Rel (StayInside backslash) name otherName) :
    Option.Rel (AlikeEnded backslash) (namedText home name)
      (namedText otherHome otherName) := by
  have opening : " AND b4.name = '".toList =
      ' ' :: ("AND b4.name =".toList ++ [' ', '\'']) := by
    rfl
  have closing : "' ".toList = '\'' :: ' ' :: [] := by
    rfl
  have grouped : ∀ (home : Option Text) (name : Text),
      pstrcat [home, " AND b4.name = '".toList, name, "' ".toList] =
        pstrcat [home, ' ' :: ("AND b4.name =".toList ++ [' ', '\'']) ++
          (name ++ '\'' :: ' ' :: [])] := by
    intro home name
    rw [opening, closing]
    cases home with
    | none => rfl
    | some home => simp [pstrcat]
  cases names with
  | none => exact rel
  | @some name otherName inside =>
      show Option.Rel (AlikeEnded backslash)
        (some (pstrcat [home, " AND b4.name = '".toList, name, "' ".toList]))
        (some (pstrcat
          [otherHome, " AND b4.name = '".toList, otherName, "' ".toList]))
      have opens : (run backslash start
          ("AND b4.name =".toList ++ [' ', '\''])).mode = .literal [] := by
        cases backslash
        · rfl
        · rfl
      rw [grouped, grouped]
      exact .some (alike_pstrcat_two rel
        (alike_literal rfl opens inside.1 inside.2 (by decide) rfl)).ended

/-- The filters with the condition of the where element. -/
def conditionsText : Option Text → Option Text → Option Text
  | none, named => named
  | some cond, some text => some (text ++ " AND ".toList ++ cond)
  | some cond, none => some (" WHERE ".toList ++ cond)

theorem alike_conditions
    {cond otherCond named otherNamed : Option Text}
    (conditions : Option.Rel (Alike backslash) cond otherCond)
    (rel : Option.Rel (AlikeEnded backslash) named otherNamed) :
    Option.Rel (AlikeEnded backslash) (conditionsText cond named)
      (conditionsText otherCond otherNamed) := by
  have junction : Alike backslash " AND ".toList " AND ".toList :=
    alike_string (by rfl)
  have keyword : Alike backslash " WHERE ".toList " WHERE ".toList :=
    alike_string (by rfl)
  cases conditions with
  | none => exact rel
  | some condition =>
      cases rel with
      | none => exact .some (keyword.append condition).ended
      | some text => exact .some ((text.append junction).append condition).ended

theorem alike_grouped
    (order : HashOrder)
    {conditions otherConditions : Option Text}
    (isMatch : Matches backslash ctx other)
    (rel : Option.Rel (AlikeEnded backslash) conditions otherConditions) :
    Option.Rel (AlikeEnded backslash)
      (if ctx.bitmarkSupportReq then
        some (pstrcat [conditions,
          if ctx.isBitQuery then " GROUP BY path".toList
          else " GROUP BY binds.id".toList] ++
            (order.arrange ctx.propMap).flatMap fun entry =>
              ", ".toList ++ entry.2)
        else conditions)
      (if other.bitmarkSupportReq then
        some (pstrcat [otherConditions,
          if other.isBitQuery then " GROUP BY path".toList
          else " GROUP BY binds.id".toList] ++
            (order.arrange other.propMap).flatMap fun entry =>
              ", ".toList ++ entry.2)
        else otherConditions) := by
  rw [isMatch.bitmarkSupportReq, isMatch.isBitQuery, isMatch.propMap]
  split
  · have attrs := alike_attrs order isMatch.clean
    have path : Alike backslash " GROUP BY path".toList
        " GROUP BY path".toList := alike_string (by rfl)
    have binds : Alike backslash " GROUP BY binds.id".toList
        " GROUP BY binds.id".toList := alike_string (by rfl)
    split
    · exact .some ((alike_pstrcat_two rel path).append attrs).ended
    · exact .some ((alike_pstrcat_two rel binds).append attrs).ended
  · exact rel

set_option maxRecDepth 4000 in
theorem alike_buildQueryWhere
    (order : HashOrder) (isMatch : Matches backslash ctx other) :
    AlikeEnded backslash (buildQueryWhere order ctx)
      (buildQueryWhere order other) := by
  have bits : Option.Rel (AlikeEnded backslash)
      (if ctx.isBitQuery then
        some " WHERE b1.collection_id = 2 AND b1.name = 'home' AND b3.name = 'bits'".toList
        else none)
      (if other.isBitQuery then
        some " WHERE b1.collection_id = 2 AND b1.name = 'home' AND b3.name = 'bits'".toList
        else none) := by
    rw [isMatch.isBitQuery]
    split
    · refine .some ?_
      rw [AlikeEnded, String.toList_ofList]
      exact alike_of_isClosed (by rfl)
    · exact .none
  have blank : Alike backslash " ".toList " ".toList :=
    alike_string (by rfl)
  have grouped := alike_grouped order isMatch
    (alike_conditions isMatch.whereCond
      (alike_named (alike_home isMatch bits) isMatch.b4Name))
  show AlikeEnded backslash (Option.getD _ " ".toList)
    (Option.getD _ " ".toList)
  exact rel_getD grouped blank.ended

theorem alike_buildQueryLimit (isMatch : Matches backslash ctx other) :
    Alike backslash (buildQueryLimit ctx) (buildQueryLimit other) := by
  have split : ∀ text : Text,
      " LIMIT ".toList ++ text = " LIMIT".toList ++ (' ' :: text) := by
    intro text
    have keyword : " LIMIT ".toList = " LIMIT".toList ++ [' '] := by
      rfl
    rw [keyword]
    simp only [List.append_assoc, List.cons_append, List.nil_append]
  have numerals := isMatch.nresults
  unfold buildQueryLimit
  generalize ctx.nresults = nresults at numerals
  generalize other.nresults = otherNresults at numerals
  cases numerals with
  | none => exact alike_string (by rfl)
  | some numerals =>
      simp only [split]
      apply Alike.append (alike_string (by rfl))
      exact alike_numeral rfl numerals.1 numerals.2

theorem alike_buildQueryOffset (isMatch : Matches backslash ctx other) :
    Alike backslash (buildQueryOffset ctx) (buildQueryOffset other) := by
  have split : ∀ text : Text,
      " OFFSET ".toList ++ text = " OFFSET".toList ++ (' ' :: text) := by
    intro text
    have keyword : " OFFSET ".toList = " OFFSET".toList ++ [' '] := by
      rfl
    rw [keyword]
    simp only [List.append_assoc, List.cons_append, List.nil_append]
  have numerals := isMatch.offset
  unfold buildQueryOffset
  generalize ctx.offset = offset at numerals
  generalize other.offset = otherOffset at numerals
  cases numerals with
  | none => exact alike_nil
  | some numerals =>
      simp only [split]
      apply Alike.append (alike_string (by rfl))
      exact alike_numeral rfl numerals.1 numerals.2

/-- From contexts that match, statements of the same structure are built. -/
theorem Matches.sameStructure (isMatch : Matches backslash ctx other) :
    SameStructure backslash (buildQuery order namespaces ctx)
      (buildQuery order namespaces other) := by
  have sameFrom : buildQueryFrom order namespaces other =
      buildQueryFrom order namespaces ctx := by
    unfold buildQueryFrom fromItems
    rw [isMatch.propMap, isMatch.mediaPropsReq, isMatch.isBitQuery,
      isMatch.bitmarkSupportReq]
  rcases isMatch.clean.orderby with ⟨rest, begins, grounded⟩
  have ordered : Alike backslash (' ' :: rest) (' ' :: rest) := by
    apply alike_same rfl
    rw [grounded]
    rfl
  apply sameStructure_of_blank
  unfold buildQuery
  rw [sameFrom, isMatch.orderby, begins]
  have first := (alike_buildQuerySelect order namespaces isMatch).append
    (alike_buildQueryFrom order namespaces isMatch.clean)
  have last : Alike backslash
      (' ' :: (rest ++ (buildQueryLimit ctx ++ buildQueryOffset ctx)))
      (' ' :: (rest ++ (buildQueryLimit other ++ buildQueryOffset other))) :=
    ordered.append ((alike_buildQueryLimit isMatch).append
      (alike_buildQueryOffset isMatch))
  have whole := first.append ((alike_buildQueryWhere order isMatch).append last)
  simpa only [List.append_assoc, List.cons_append] using whole

theorem searchQuery_eq_ok
    {request : SearchRequest CharData} {query : Text}
    (compiled : searchQuery server order request = .ok query) :
    ∃ ctx, parseQuery server order request = .ok ctx ∧
      buildQuery order server.namespaces ctx = query := by
  unfold searchQuery at compiled
  cases parsed : parseQuery server order request with
  | error failure =>
      rw [parsed] at compiled
      cases compiled
  | ok ctx =>
      rw [parsed] at compiled
      exact ⟨ctx, rfl, Except.ok.inj compiled⟩

/--
Two requests with the same elements are compiled to statements of the same
structure if no literal or name ends the literal that it is put into, and limit
and offset are numbers.
-/
theorem sameStructure_of_isSafe
    {request : SearchRequest (CharData × CharData)} {query otherQuery : Text}
    (safe : IsSafe server backslash (request.map Prod.fst))
    (otherSafe : IsSafe server backslash (request.map Prod.snd))
    (filters : SameFilters server request)
    (compiled : searchQuery server order (request.map Prod.fst) = .ok query)
    (otherCompiled : searchQuery server order (request.map Prod.snd) =
      .ok otherQuery) :
    SameStructure backslash query otherQuery := by
  rcases searchQuery_eq_ok compiled with ⟨ctx, parsed, rfl⟩
  rcases searchQuery_eq_ok otherCompiled with ⟨other, otherParsed, rfl⟩
  exact (matches_parseQuery safe otherSafe filters parsed
    otherParsed).sameStructure

/-- The two of a request for things of a colour. -/
def colourRequest (literal otherLiteral : Text) :
    SearchRequest (CharData × CharData) where
  select := some ⟨some [colour], none, false⟩
  whereElem := some
    (.comp .eq (.prop colour) ⟨([literal], [otherLiteral]), none⟩)
  scopes := some
    [⟨(["/home".toList], ["/tmp".toList]), some ["1".toList]⟩]
  orderby := none
  limit := some (some (["10".toList], ["20".toList]))
  offset := none

theorem isSafe_colourRequest
    {href nresults literal : Text} {uri : Text}
    (inside : StaysInside false literal)
    (found : scopeUri smallServer [href] = .ok uri)
    (uriInside : StaysInside false uri)
    (numeral : IsNumeral (smallServer.davXmlGetCdata [nresults])) :
    IsSafe smallServer false
      { select := some ⟨some [colour], none, false⟩
        whereElem := some
          (.comp .eq (.prop colour) ⟨[literal], none⟩)
        scopes := some [⟨[href], some ["1".toList]⟩]
        orderby := none
        limit := some (some [nresults])
        offset := none } := by
  refine ⟨?_, ?_, nofun, ?_⟩
  · rintro elem ⟨⟩ node member
    rcases List.mem_singleton.mp member with rfl
    exact ⟨inside, nofun⟩
  · rintro nresults ⟨⟩ data ⟨⟩
    exact numeral
  · rintro scopes ⟨⟩ scope member otherUri otherFound
    rcases List.mem_singleton.mp member with rfl
    rcases Except.ok.inj (found.symm.trans otherFound) with rfl
    exact uriInside

theorem sameStructure_of_isSafe_quotes :
    ∃ query otherQuery,
      searchQuery smallServer keptOrder
          ((colourRequest "blue".toList "dark ''red''".toList).map Prod.fst) =
            .ok query ∧
        searchQuery smallServer keptOrder
          ((colourRequest "blue".toList "dark ''red''".toList).map Prod.snd) =
            .ok otherQuery ∧
        SameStructure false query otherQuery := by
  have blue : StaysInside false "blue".toList :=
    staysInside_of_plain (SqlText.forall_mem_of_all (by decide))
  have quoted : StaysInside false "dark ''red''".toList := by
    simp [StaysInside]
  have home : StaysInside false "/home".toList :=
    staysInside_of_plain (SqlText.forall_mem_of_all (by decide))
  have tmp : StaysInside false "/tmp".toList :=
    staysInside_of_plain (SqlText.forall_mem_of_all (by decide))
  have ten : IsNumeral (smallServer.davXmlGetCdata ["10".toList]) :=
    ⟨nofun, SqlText.forall_mem_of_all (by decide)⟩
  have twenty : IsNumeral (smallServer.davXmlGetCdata ["20".toList]) :=
    ⟨nofun, SqlText.forall_mem_of_all (by decide)⟩
  have filters : SameFilters smallServer
      (colourRequest "blue".toList "dark ''red''".toList) := by
    intro bits
    cases bits
  have accepted : ∃ query, searchQuery smallServer keptOrder
      ((colourRequest "blue".toList "dark ''red''".toList).map Prod.fst) =
        .ok query := ⟨_, rfl⟩
  have otherAccepted : ∃ query, searchQuery smallServer keptOrder
      ((colourRequest "blue".toList "dark ''red''".toList).map Prod.snd) =
        .ok query := ⟨_, rfl⟩
  rcases accepted with ⟨query, compiled⟩
  rcases otherAccepted with ⟨otherQuery, otherCompiled⟩
  exact ⟨query, otherQuery, compiled, otherCompiled,
    sameStructure_of_isSafe (isSafe_colourRequest blue rfl home ten)
      (isSafe_colourRequest quoted rfl tmp twenty) filters compiled
      otherCompiled⟩

/-- A literal with a quote adds an alternative to the condition. -/
theorem quote_not_sameStructure :
    ∃ query otherQuery,
      searchQuery smallServer keptOrder
          ((colourRequest "blue".toList "' OR '1' = '1".toList).map Prod.fst) =
            .ok query ∧
        searchQuery smallServer keptOrder
          ((colourRequest "blue".toList "' OR '1' = '1".toList).map Prod.snd) =
            .ok otherQuery ∧
        ¬ SameStructure false query otherQuery := by
  refine ⟨_, _, rfl, rfl, ?_⟩
  unfold SameStructure
  decide +kernel

end Limestone.Search
