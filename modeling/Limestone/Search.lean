import Limestone.Library.Segments
import Limestone.Library.SqlText
import Limestone.Schema

/-!
# SEARCH: `search.c`

The elements of a `basicsearch` are compiled to one SQL statement.  The parts
of the request are parsed into a context, the parts of the statement are built
from it, and the statement is their concatenation.

The type of the character data of literals, hrefs, limit and offset is a
parameter of the requests.  Elements without the children that the source
dereferences have no value here; where only the data is missing, the result
is `undefined`.
-/

namespace Limestone.Search

open Library

/-! ## The request -/

/-- Character data, in the pieces in which the XML parser delivers it. -/
abbrev CharData := List Text

/-- The name of an element: not empty, without quotes and backslashes. -/
structure XmlName where
  text : Text
  nonempty : text ≠ []
  plain : ∀ char ∈ text, char ≠ '\'' ∧ char ≠ '"' ∧ char ≠ '\\'

/-- Names are the same if their texts are. -/
theorem XmlName.eq_iff {first second : XmlName} :
    first = second ↔ first.text = second.text := by
  constructor
  · exact congrArg XmlName.text
  · intro same
    cases first
    cases second
    cases same
    rfl

instance : DecidableEq XmlName :=
  fun _ _ => decidable_of_iff _ XmlName.eq_iff.symm

/-- An element that names a property; `ns` is the URI of its namespace. -/
structure PropElem where
  name : XmlName
  ns : Text
  hasChild : Bool
deriving DecidableEq

/-- `ns == APR_XML_NS_DAV_ID`. -/
def PropElem.isDav (prop : PropElem) : Bool :=
  prop.ns == "DAV:".toList

/-- The keys of `comp_ops_map`. -/
inductive CompOp where
  | eq
  | lt
  | gt
  | lte
  | gte
  | like
deriving DecidableEq, Repr

/-- `and` and `or`. -/
inductive LogOp where
  | and
  | or
deriving DecidableEq, Repr

/-- What is compared: a property, or one of the bitmarks of the resource. -/
inductive Subject where
  | prop (prop : PropElem)
  | bitmark (prop : PropElem)
deriving DecidableEq

/-- A literal; a typed literal has a type attribute, if it is there. -/
structure LiteralElem (Data : Type) where
  cdata : Data
  typed : Option (Option Text)
deriving DecidableEq, Repr

/-- An element in the where clause. -/
inductive WhereElem (Data : Type) where
  | comp (op : CompOp) (subject : Subject) (literal : LiteralElem Data)
  | log (op : LogOp) (operands : List (WhereElem Data))
  | not (operands : List (WhereElem Data))
  | isCollection
  | isBit
  | isDefined (prop : PropElem)
  /-- No operator is registered under the name. -/
  | other (name : Text)

mutual

/--
The elements that `parse_where` comes to: all operands of `and` and `or`, but
only the first one of `not`.
-/
def WhereElem.nodes {Data : Type} : WhereElem Data → List (WhereElem Data)
  | .log op operands => .log op operands :: operandNodes operands
  | .not [] => [.not []]
  | .not (first :: others) => .not (first :: others) :: first.nodes
  | elem => [elem]

def operandNodes {Data : Type} : List (WhereElem Data) → List (WhereElem Data)
  | [] => []
  | operand :: operands => operand.nodes ++ operandNodes operands

end

structure SelectElem where
  prop : Option (List PropElem)
  bitmark : Option (List PropElem)
  allprop : Bool
deriving DecidableEq

structure ScopeElem (Data : Type) where
  href : Data
  depth : Option CharData
deriving DecidableEq, Repr

inductive OrderElem where
  /-- Without children. -/
  | empty
  /-- The first child is not a `prop`. -/
  | other
  | prop (prop : Option PropElem) (descending : Bool)
deriving DecidableEq

/-- The elements of a `basicsearch`. -/
structure SearchRequest (Data : Type) where
  select : Option SelectElem
  whereElem : Option (WhereElem Data)
  scopes : Option (List (ScopeElem Data))
  orderby : Option (List OrderElem)
  /-- The `nresults` of `limit`. -/
  limit : Option (Option Data)
  offset : Option Data

/-! ## What the request is compiled with -/

/-- The ids of namespaces, which the table `namespaces` keeps apart. -/
structure NamespaceTable where
  id : Text → Nat
  injective : Function.Injective id

/-- The resource that `dav_get_resource_from_uri` finds for a URI. -/
structure ScopeResource where
  bindId : Nat
  uri : Text
  serialno : Nat
deriving DecidableEq, Repr

/-- The namespaces, the URI of the request, and functions of other modules. -/
structure Server where
  namespaces : NamespaceTable
  /-- `dav_xml_get_cdata` with white space stripped. -/
  davXmlGetCdata : CharData → Text
  requestUri : Text
  /-- `ap_is_url`. -/
  isUrl : Text → Bool
  /-- The path that `apr_uri_parse` finds, if any. -/
  uriPath : Text → Option Text
  /-- `ap_getparents`. -/
  getparents : Text → Text
  /-- `dav_get_resource_from_uri`. -/
  resourceFromUri : Text → ScopeResource

/-- The order in which a hash is iterated over, which its contents decide. -/
structure HashOrder where
  arrange : List (Text × Text) → List (Text × Text)
  perm : ∀ entries, (arrange entries).Perm entries

/-- `apr_hash_set`; a NULL value removes the key. -/
def hashSet (entries : List (Text × Text)) (key : Text) :
    Option Text → List (Text × Text)
  | none => entries.filter fun entry => entry.1 != key
  | some value =>
      if key ∈ entries.map Prod.fst then
        entries.map fun entry => if entry.1 = key then (key, value) else entry
      else entries ++ [(key, value)]

/-- `apr_pstrcat`, which stops at the first NULL. -/
def pstrcat (texts : List (Option Text)) : Text :=
  (texts.takeWhile Option.isSome).flatMap fun text => text.getD []

/-- `%d` and `%ld` of a number that is not negative. -/
def number (value : Nat) : Text :=
  Nat.toDigits 10 value

/-- `search_ctx`, as far as the statement depends on it. -/
structure SearchCtx where
  propMap : List (Text × Text) := []
  bitmarksMap : List (Text × Text) := []
  mediaPropsReq : Bool := false
  isBitQuery : Bool := false
  bitmarkSupportReq : Bool := false
  whereCond : Option Text := none
  orderby : Text := " ".toList
  nresults : Option Text := none
  offset : Option Text := none
  b4Name : Option Text := none
  b2Rid : Nat := 0
  searchGraphSeed : Option Text := none
  searchGraphCond : Option Text := none
deriving DecidableEq, Repr

/-- The status with `err_msg`, or a pointer that is not valid. -/
inductive Failure where
  | status (code : Nat) (errMsg : Option String)
  | undefined
deriving DecidableEq, Repr

/-! ## Properties -/

/-- `get_prop_key`. -/
def getPropKey (propname : Text) (nsId : Nat) : Text :=
  propname ++ '_' :: number nsId

/-- `get_liveprop_map`. -/
def getLivepropMap : List (Text × Text) :=
  [("creationdate".toList, "created_at".toList),
    ("displayname".toList, "displayname".toList),
    ("getcontentlanguage".toList, "contentlanguage".toList),
    ("getcontenttype".toList, "media.mimetype".toList),
    ("getcontentlength".toList, "media.size".toList),
    ("getlastmodified".toList, "media.updated_at".toList),
    ("getetag".toList, "media.sha1".toList),
    ("resourcetype".toList, "type".toList),
    ("resource-id".toList, "resources.uuid".toList),
    ("owner".toList, "principals.name".toList),
    ("lastmodified".toList, "resources.lastmodified".toList),
    ("popularity".toList, "resources.views".toList),
    ("coolness".toList, "resources.coolness".toList),
    ("edits".toList, "resources.edits".toList)]

/-- The key of a property. -/
def propKey (namespaces : NamespaceTable) (prop : PropElem) : Text :=
  getPropKey prop.name.text (namespaces.id prop.ns)

/-- The attribute that `prop_attr_lookup` returns; `none` is NULL. -/
def propAttr (namespaces : NamespaceTable) (prop : PropElem) : Option Text :=
  if prop.isDav then getLivepropMap.lookup prop.name.text
  else some ('"' :: propKey namespaces prop ++ ['"'])

/-- `prop_attr_lookup` asks for the table `media`. -/
def needsMedia (prop : PropElem) : Bool :=
  prop.isDav && (getLivepropMap.lookup prop.name.text).any fun attr =>
    decide ("media.".toList <:+: attr)

/-- `prop_attr_lookup`. -/
def propAttrLookup (namespaces : NamespaceTable) (prop : PropElem)
    (ctx : SearchCtx) : Option Text × SearchCtx :=
  (propAttr namespaces prop,
    { ctx with mediaPropsReq := ctx.mediaPropsReq || needsMedia prop })

/-! ## The select element -/

/-- One `propi` of a `prop` element. -/
def selectProp (namespaces : NamespaceTable) (ctx : SearchCtx)
    (prop : PropElem) : SearchCtx :=
  let found := propAttrLookup namespaces prop ctx
  { found.2 with
    propMap := hashSet found.2.propMap (propKey namespaces prop) found.1 }

/-- All live properties. -/
def selectAllprop (order : HashOrder) (namespaces : NamespaceTable)
    (ctx : SearchCtx) : SearchCtx :=
  (order.arrange getLivepropMap).foldl (fun ctx entry =>
    { ctx with
      propMap := hashSet ctx.propMap
        (getPropKey entry.1 (namespaces.id "DAV:".toList)) (some entry.2)
      mediaPropsReq := true }) ctx

/-- `parse_select`. -/
def parseSelect (order : HashOrder) (namespaces : NamespaceTable)
    (selectElem : SelectElem) (ctx : SearchCtx) :
    Except Failure SearchCtx := do
  let ctx ← (match selectElem.prop with
    | none => .ok ctx
    | some [] => .error (.status httpBadRequest "No prop information")
    | some (first :: props) =>
        if first.hasChild then
          .error (.status httpBadRequest "No prop information")
        else .ok ((first :: props).foldl (selectProp namespaces) ctx))
  let ctx := match selectElem.bitmark with
    | none | some [] => ctx
    | some props =>
        { ctx with
          bitmarksMap := props.foldl (fun entries prop =>
            hashSet entries prop.name.text (some prop.ns)) ctx.bitmarksMap
          bitmarkSupportReq := true }
  let ctx := if selectElem.allprop then selectAllprop order namespaces ctx
    else ctx
  if selectElem.prop.isNone ∧ !selectElem.allprop ∧ !ctx.bitmarkSupportReq then
    .error (.status httpBadRequest
      "Unknown element name(select) in select.Use <allprop> or <prop>")
  else .ok ctx

/-! ## The where element -/

/-- The operator of `comp_ops_map`. -/
def CompOp.sql : CompOp → Text
  | .eq => "=".toList
  | .lt => "<".toList
  | .gt => ">".toList
  | .lte => "<=".toList
  | .gte => ">=".toList
  | .like => "LIKE".toList

/-- The name of the element. -/
def LogOp.name : LogOp → Text
  | .and => "and".toList
  | .or => "or".toList

/-- More text of the condition, which begins with a blank. -/
def appendWhere (ctx : SearchCtx) (text : Text) : SearchCtx :=
  { ctx with whereCond := some (ctx.whereCond.getD " ".toList ++ text) }

/-- The type without its namespace prefix. -/
def typeName (type : Text) : Option Text :=
  match type.dropWhile fun char => char != ':' with
  | [] => none
  | _ :: name => some name

/-- The attribute with the type of a typed literal. -/
def typedAttr (attr : Text) : Option (Option Text) → Except Failure Text
  | none => .ok attr
  | some none => .error .undefined
  | some (some type) =>
      match typeName type with
      | none => .error .undefined
      | some name => .ok (attr ++ "::".toList ++ name)

/-- The comparison of a property. -/
def compText (attr : Text) (op : CompOp) (literal : Text) : Text :=
  "( ".toList ++ attr ++ " ".toList ++ op.sql ++ " '".toList ++ literal ++
    "' )".toList

/-- The comparison of a bitmark. -/
def bitmarkText (nsId : Nat) (name attr : Text) (op : CompOp)
    (literal : Text) : Text :=
  "( resources.id IN".toList ++
    " (SELECT resource_id FROM resource_bitmarks WHERE namespace_id = ".toList ++
    number nsId ++ " AND name = '".toList ++ name ++ "' AND ".toList ++ attr ++
    " ".toList ++ op.sql ++ " '".toList ++ literal ++ "' ))".toList

/--
`parse_comp_ops`.  Only the first piece of the character data is used; there
is none in an empty literal.
-/
def parseCompOps (namespaces : NamespaceTable) (op : CompOp)
    (subject : Subject) (literal : LiteralElem CharData) (ctx : SearchCtx) :
    Except Failure SearchCtx :=
  match subject with
  | .bitmark prop => do
      let attr ← typedAttr "value".toList literal.typed
      match literal.cdata with
      | [] => .error .undefined
      | text :: _ =>
          .ok (appendWhere ctx (bitmarkText (namespaces.id prop.ns)
            prop.name.text attr op text))
  | .prop prop =>
      match propAttrLookup namespaces prop ctx with
      | (none, _) => .error (.status httpBadRequest none)
      | (some attr, ctx) => do
          let attr ← typedAttr attr literal.typed
          match literal.cdata with
          | [] => .error .undefined
          | text :: _ => .ok (appendWhere ctx (compText attr op text))

/-- `parse_is_defined`. -/
def parseIsDefined (namespaces : NamespaceTable) (prop : PropElem)
    (ctx : SearchCtx) : SearchCtx :=
  let found := propAttrLookup namespaces prop ctx
  appendWhere
    { found.2 with
      propMap := hashSet found.2.propMap (propKey namespaces prop) found.1 }
    (pstrcat ["( ".toList, found.1, " IS NOT NULL )".toList])

mutual

/-- `parse_where`, `parse_log_ops`, `parse_is_coll` and `parse_is_bit`. -/
def parseWhere (namespaces : NamespaceTable) :
    WhereElem CharData → SearchCtx → Except Failure SearchCtx
  | .comp op subject literal, ctx =>
      parseCompOps namespaces op subject literal ctx
  | .log _ [], _ => .error (.status httpBadRequest none)
  | .log op (first :: operands), ctx => do
      let ctx ← parseWhere namespaces first (appendWhere ctx "( ".toList)
      let ctx ← parseOperands namespaces op operands ctx
      return appendWhere ctx " )".toList
  | .not [], _ => .error (.status httpBadRequest none)
  -- the other operands are not parsed
  | .not (first :: _), ctx => do
      let ctx ← parseWhere namespaces first (appendWhere ctx "( NOT ".toList)
      return appendWhere ctx " )".toList
  | .isCollection, ctx => .ok (appendWhere ctx "( type = 'Collection' )".toList)
  | .isBit, ctx =>
      .ok (appendWhere { ctx with isBitQuery := true }
        "( type = 'Collection' )".toList)
  | .isDefined prop, ctx => .ok (parseIsDefined namespaces prop ctx)
  | .other _, _ => .error (.status httpBadRequest none)

/-- The loop of `parse_log_ops` over the operands after the first. -/
def parseOperands (namespaces : NamespaceTable) (op : LogOp) :
    List (WhereElem CharData) → SearchCtx → Except Failure SearchCtx
  | [], ctx => .ok ctx
  | operand :: operands, ctx => do
      let ctx ← parseWhere namespaces operand
        (appendWhere ctx (" ".toList ++ op.name ++ " ".toList))
      parseOperands namespaces op operands ctx

end

/-! ## The from element -/

/-- `dav_repos_chomp_slash`. -/
def chompSlash (uri : Text) : Text :=
  (uri.reverse.dropWhile fun char => char == '/').reverse

/-- The path of an href, before its last slashes are deleted. -/
def hrefUri (server : Server) (href : Text) : Option Text :=
  if server.isUrl href then server.uriPath href
  else if href.head? = some '/' then some href
  else (server.uriPath (server.requestUri ++ '/' :: href)).map server.getparents

/-- `strtol` of what `atoi` is given. -/
def atoi (text : Text) : Int :=
  match text.dropWhile Char.isWhitespace with
  | '-' :: digits =>
      -(Nat.ofDigitChars 10 (digits.takeWhile Char.isDigit) 0 : Int)
  | '+' :: digits => Nat.ofDigitChars 10 (digits.takeWhile Char.isDigit) 0
  | digits => Nat.ofDigitChars 10 (digits.takeWhile Char.isDigit) 0

/-- `parse_depth`; `none` is `DAV_INFINITY`. -/
def parseDepth (server : Server) (cdata : CharData) : Option Int :=
  let text := server.davXmlGetCdata cdata
  -- `apr_strnatcmp` does not count blanks
  if (text.filter fun char => !char.isWhitespace) = "infinity".toList then none
  else some (atoi text)

/-- The filter that a scope of a query for bits asks for. -/
structure BitScope where
  /-- `b4_name` is set. -/
  names : Bool
  /-- The prefix of the URI whose resource is looked up. -/
  homeUri : Option Text
deriving DecidableEq, Repr

/-- The URI up to the given number of slashes. -/
def throughSlashes : Nat → Text → Text
  | 0, _ => []
  | _, [] => []
  | count + 1, char :: uri =>
      char :: throughSlashes (if char = '/' then count else count + 1) uri

/-- What `parse_scope` reads off the URI of a scope of a query for bits. -/
def bitScope (uri : Text) : BitScope :=
  let uriDepth := uri.count '/'
  let isBangLime := "/!lime/root".toList.isPrefixOf uri
  if 1 < uriDepth ∧ ("/home".toList.isPrefixOf uri ∨
      "/!lime/root/home".toList.isPrefixOf uri) then
    { names := decide (uriDepth = 4) && decide ("/bits/".toList <:+: uri) &&
        !isBangLime
      homeUri := some (throughSlashes (if isBangLime then 5 else 3) uri) }
  else { names := false, homeUri := none }

/-- `basename` of a path without slashes at its end. -/
def basename (uri : Text) : Text :=
  (uri.reverse.takeWhile fun char => char != '/').reverse

/-- The row of `search_graph_seed` for a scope. -/
def seedText (resource : ScopeResource) : Text :=
  "(".toList ++ number resource.bindId ++ ", ".toList ++
    number resource.bindId ++ ", '".toList ++ resource.uri ++ "', ".toList ++
    number resource.serialno ++ "::bigint, 0, ARRAY[".toList ++
    number resource.bindId ++ "], false)".toList

/-- The part of `search_graph_cond` for a scope. -/
def condText (resource : ScopeResource) : Option Int → Text
  | none => "(sg.root_bind_id = ".toList ++ number resource.bindId ++ ")".toList
  | some depth =>
      "(sg.root_bind_id = ".toList ++ number resource.bindId ++
        " AND sg.depth < ".toList ++ (toString depth).toList ++ ")".toList

/-- The URI of a scope. -/
def scopeUri (server : Server) (href : CharData) : Except Failure Text :=
  let text := server.davXmlGetCdata href
  if text = [] then
    .error (.status httpBadRequest "Missing href in <scope>")
  else
    match hrefUri server text with
    | none => .error (.status httpBadRequest "Malformed HREF")
    | some uri => .ok (if 1 < uri.length then chompSlash uri else uri)

/-- The changes of the context for a scope of a query for bits. -/
def addBitScope (server : Server) (uri : Text) (ctx : SearchCtx) : SearchCtx :=
  match (bitScope uri).homeUri with
  | none => ctx
  | some homeUri =>
      { ctx with
        b4Name := if (bitScope uri).names then some (basename uri)
          else ctx.b4Name
        b2Rid := (server.resourceFromUri homeUri).serialno }

/-- The changes of the context for any other scope. -/
def addSearchGraph (resource : ScopeResource) (depth : Option Int)
    (ctx : SearchCtx) : SearchCtx :=
  { ctx with
    searchGraphSeed := some (match ctx.searchGraphSeed with
      | none => seedText resource
      | some seed => seed ++ ",".toList ++ seedText resource)
    searchGraphCond := some (match ctx.searchGraphCond with
      | none => condText resource depth
      | some cond => cond ++ " OR ".toList ++ condText resource depth) }

/-- `parse_scope`. -/
def parseScope (server : Server) (ctx : SearchCtx)
    (scope : ScopeElem CharData) : Except Failure SearchCtx := do
  let uri ← scopeUri server scope.href
  match scope.depth with
  | none => .error (.status httpBadRequest "Missing depth in <scope>")
  | some depth =>
      if ctx.isBitQuery then .ok (addBitScope server uri ctx)
      else
        .ok (addSearchGraph (server.resourceFromUri uri)
          (parseDepth server depth) ctx)

/-- `parse_from`. -/
def parseFrom (server : Server) (scopes : List (ScopeElem CharData))
    (ctx : SearchCtx) : Except Failure SearchCtx :=
  if scopes = [] then
    .error (.status httpBadRequest
      "The FROM portion of query does not have a <scope> element")
  else scopes.foldlM (parseScope server) ctx

/-! ## The other elements -/

/-- `parse_order`; an unknown attribute is NULL and adds nothing. -/
def parseOrder (namespaces : NamespaceTable) (ctx : SearchCtx) :
    OrderElem → Except Failure SearchCtx
  | .empty => .error (.status httpBadRequest none)
  | .other => .ok ctx
  | .prop none _ => .error (.status httpBadRequest none)
  | .prop (some prop) descending =>
      let found := propAttrLookup namespaces prop ctx
      .ok { found.2 with
        orderby := pstrcat [some found.2.orderby, found.1] ++
          if descending then " DESC ".toList else " ASC ".toList }

/-- The loop of `parse_orderby`. -/
def parseOrders (namespaces : NamespaceTable) :
    List OrderElem → SearchCtx → Except Failure SearchCtx
  | [], ctx => .ok ctx
  | order :: orders, ctx => do
      let ctx ← parseOrder namespaces ctx order
      let ctx := if orders = [] then ctx
        else { ctx with orderby := ctx.orderby ++ ", ".toList }
      parseOrders namespaces orders ctx

/-- `parse_orderby`. -/
def parseOrderby (namespaces : NamespaceTable) (orders : List OrderElem)
    (ctx : SearchCtx) : Except Failure SearchCtx :=
  if orders = [] then
    .error (.status httpBadRequest
      "The ORDERBY portion of query does not have a <order> element")
  else parseOrders namespaces orders
    { ctx with orderby := " ORDER BY ".toList }

/-- `parse_query`. -/
def parseQuery (server : Server) (order : HashOrder)
    (request : SearchRequest CharData) : Except Failure SearchCtx := do
  let ctx ← (match request.select with
    | none => .error (.status httpBadRequest "We don't have <select> element")
    | some selectElem => parseSelect order server.namespaces selectElem {})
  let ctx ← (match request.whereElem with
    | none => .ok ctx
    | some whereElem => parseWhere server.namespaces whereElem ctx)
  let ctx ← (match request.scopes with
    | none => .error (.status httpBadRequest "We don't have <from> element")
    | some scopes => parseFrom server scopes ctx)
  let ctx ← (match request.orderby with
    | none => .ok { ctx with orderby := " ".toList }
    | some orders => parseOrderby server.namespaces orders ctx)
  return { ctx with
    nresults := request.limit.bind fun nresults =>
      nresults.map server.davXmlGetCdata
    offset := request.offset.map server.davXmlGetCdata }

/-! ## The statement -/

/-- The part of the select clause for bitmarks, up to their names. -/
def bitmarksOpening : Text :=
  "WITH resource_bitmarks AS ( SELECT resources.id AS resource_id, bitmarks.namespace_id, bitmarks.name, bitmarks.value, bitmark_resources.name AS bitmark_id FROM resources INNER JOIN binds bitmarked_resources ON bitmarked_resources.name = resources.uuid INNER JOIN binds bitmark_resources ON bitmark_resources.collection_id = bitmarked_resources.resource_id INNER JOIN properties bitmarks ON bitmarks.resource_id = bitmark_resources.resource_id AND bitmarks.value != '' AND (bitmarks.namespace_id, bitmarks.name) IN (".toList

/-- The part of the select clause for bitmarks. -/
def bitmarksText (order : HashOrder) (namespaces : NamespaceTable)
    (bitmarksMap : List (Text × Text)) : Text :=
  let query := bitmarksOpening ++
    (order.arrange bitmarksMap).flatMap fun entry =>
      "(".toList ++ number (namespaces.id entry.2) ++ ", '".toList ++ entry.1 ++
        "'),".toList
  -- the last character is replaced, a comma if there is a bitmark
  query.dropLast ++ ")".toList

/-- `build_query_select`. -/
def buildQuerySelect (order : HashOrder) (namespaces : NamespaceTable)
    (ctx : SearchCtx) : Text :=
  let select :=
    if ctx.isBitQuery then
      "SELECT '/' || b1.name || '/' || b2.name || '/' || b3.name || '/' || b4.name AS path".toList
    else
      pstrcat ["WITH RECURSIVE search_graph(root_bind_id, bind_id, url, resource_id, depth, visited_binds, cycle) AS ( VALUES ".toList,
        ctx.searchGraphSeed,
        " UNION ALL SELECT sg.root_bind_id, b.id, url || '/' || b.name, b.resource_id, sg.depth + 1, visited_binds || b.id, b.id = ANY(visited_binds) FROM binds b, search_graph sg WHERE b.collection_id = sg.resource_id AND NOT cycle AND (".toList,
        ctx.searchGraphCond, "))".toList, " SELECT search_graph.url".toList]
  let select :=
    if ctx.bitmarkSupportReq then
      bitmarksText order namespaces ctx.bitmarksMap ++ ") ".toList ++ select
    else select
  let select := select ++ (order.arrange ctx.propMap).flatMap fun entry =>
    ", ".toList ++ entry.2
  if ctx.bitmarkSupportReq then
    select ++ ", concat(resource_bitmarks.name || '>' || resource_bitmarks.value || '>' || '/bitmarks/' || resources.uuid || '/' || resource_bitmarks.bitmark_id || '>' )".toList
  else select

/-- The property that `get_prop_from_prop_key` makes of a key. -/
structure KeyProperty where
  /-- `none` is NULL. -/
  name : Option Text
  nsId : Nat
deriving DecidableEq, Repr

/--
`get_prop_from_prop_key`: the last token is the id, the others are put
together without the underscores between them.
-/
def getPropFromPropKey (key : Text) : KeyProperty :=
  let tokens := Segments.tokens '_' key
  { name := if tokens.dropLast = [] then none else some tokens.dropLast.flatten
    nsId := Nat.ofDigitChars 10 (tokens.getLastD []) 0 }

/-- The tables and joins of the from clause. -/
inductive FromItem where
  | resources
  | media
  | bitBinds
  | searchGraph
  | deadProperty (key : Text) (prop : KeyProperty)
  | bitmarks
deriving DecidableEq, Repr

/-- The text for an item; `%s` of NULL is `(null)`. -/
def FromItem.text : FromItem → Text
  | .resources =>
      " FROM resources  LEFT JOIN principals ON principals.resource_id = resources.owner_id ".toList
  | .media =>
      " LEFT JOIN media ON resources.id = media.resource_id ".toList
  | .bitBinds =>
      " LEFT JOIN binds b4 ON b4.resource_id = resources.id INNER JOIN binds b3 ON b4.collection_id = b3.resource_id INNER JOIN binds b2 ON b3.collection_id = b2.resource_id INNER JOIN binds b1 ON b2.collection_id = b1.resource_id".toList
  | .searchGraph =>
      " INNER JOIN search_graph ON resources.id = search_graph.resource_id ".toList
  | .deadProperty key prop =>
      " LEFT JOIN (SELECT resource_id, value AS \"".toList ++ key ++
        "\" FROM properties WHERE name = '".toList ++
        prop.name.getD "(null)".toList ++ "' AND namespace_id = ".toList ++
        number prop.nsId ++ ") \"".toList ++ key ++ "_table\" ON \"".toList ++
        key ++ "_table\".resource_id = resources.id ".toList
  | .bitmarks =>
      " LEFT JOIN resource_bitmarks ON resource_bitmarks.resource_id = resources.id".toList

/-- The items of `build_query_from`. -/
def fromItems (order : HashOrder) (namespaces : NamespaceTable)
    (ctx : SearchCtx) : List FromItem :=
  [.resources] ++ (if ctx.mediaPropsReq then [.media] else []) ++
    [if ctx.isBitQuery then .bitBinds else .searchGraph] ++
    ((order.arrange ctx.propMap).filterMap fun entry =>
      if (getPropFromPropKey entry.1).nsId = namespaces.id "DAV:".toList then
        none
      else some (.deadProperty entry.1 (getPropFromPropKey entry.1))) ++
    if ctx.bitmarkSupportReq then [.bitmarks] else []

/-- `build_query_from`. -/
def buildQueryFrom (order : HashOrder) (namespaces : NamespaceTable)
    (ctx : SearchCtx) : Text :=
  (fromItems order namespaces ctx).flatMap FromItem.text

/-- `build_query_where`. -/
def buildQueryWhere (order : HashOrder) (ctx : SearchCtx) : Text :=
  let bits : Option Text :=
    if ctx.isBitQuery then
      some " WHERE b1.collection_id = 2 AND b1.name = 'home' AND b3.name = 'bits'".toList
    else none
  let home :=
    if ctx.b2Rid = 0 then bits
    else some (pstrcat [bits, " AND b2.resource_id = ".toList ++
      number ctx.b2Rid ++ " ".toList])
  let named :=
    match ctx.b4Name with
    | none => home
    | some name =>
        some (pstrcat [home, " AND b4.name = '".toList, name, "' ".toList])
  let conditions :=
    match ctx.whereCond, named with
    | none, named => named
    | some cond, some text => some (text ++ " AND ".toList ++ cond)
    | some cond, none => some (" WHERE ".toList ++ cond)
  let grouped :=
    if ctx.bitmarkSupportReq then
      some (pstrcat [conditions,
        if ctx.isBitQuery then " GROUP BY path".toList
        else " GROUP BY binds.id".toList] ++
          (order.arrange ctx.propMap).flatMap fun entry =>
            ", ".toList ++ entry.2)
    else conditions
  grouped.getD " ".toList

/-- `build_query_limit`. -/
def buildQueryLimit (ctx : SearchCtx) : Text :=
  match ctx.nresults with
  | none => " ".toList
  | some nresults => " LIMIT ".toList ++ nresults

/-- `build_query_offset`; NULL ends the statement. -/
def buildQueryOffset (ctx : SearchCtx) : Text :=
  match ctx.offset with
  | none => []
  | some offset => " OFFSET ".toList ++ offset

/-- `build_query`. -/
def buildQuery (order : HashOrder) (namespaces : NamespaceTable)
    (ctx : SearchCtx) : Text :=
  buildQuerySelect order namespaces ctx ++
    buildQueryFrom order namespaces ctx ++ buildQueryWhere order ctx ++
    ctx.orderby ++ buildQueryLimit ctx ++ buildQueryOffset ctx

/-- The statement of `dav_repos_search_resource`. -/
def searchQuery (server : Server) (order : HashOrder)
    (request : SearchRequest CharData) : Except Failure Text :=
  (parseQuery server order request).map
    (buildQuery order server.namespaces)

end Limestone.Search
