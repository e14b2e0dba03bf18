import Limestone.Library.ControlBreak
import Limestone.LockTokenFormat
import Limestone.PropertyKeys

/-!
# The responses of SEARCH: `build_xml_response`

The rows of a search are read in order.  The loop collects what it reads until
the href changes, writes a response then, and takes one turn more than there
are rows for the last response.  Hrefs are compared in natural order, and hrefs
that are not the same can be equal in it.
-/

namespace Limestone.SearchResponse

open Library Search

/-! ## What the responses are made with -/

/-- `apr_strnatcmp`: 0 if the texts are equal in natural order. -/
structure NaturalOrder where
  strnatcmp : Text → Text → Int
  self : ∀ text, strnatcmp text text = 0

/-- `DAV_STYLE_ISO8601` and `DAV_STYLE_RFC822`. -/
inductive TimeStyle where
  | iso8601
  | rfc822
deriving DecidableEq, Repr

/-- The namespaces, and functions of other modules. -/
structure ResponseServer where
  order : NaturalOrder
  namespaces : NamespaceTable
  /-- `namespace_map`; `none` is NULL. -/
  namespaceMap : Nat → Option Text
  /-- `DEBUG_CR`. -/
  debugCr : Text
  /-- `dav_repos_format_strtime`. -/
  formatStrtime : TimeStyle → Text → Text
  /-- `dav_repos_principal_to_s` of `dav_repos_get_prin_by_name`. -/
  principalHref : Text → Text
  /-- `apr_xml_quote_string` with quotes left alone. -/
  quoteString : Text → Text
  /-- `dav_get_response_href`. -/
  responseHref : Option Text → Option Text

/-- A row that `dbms_fetch_row_num` returns. -/
structure ResultRow where
  href : Text
  columns : List (Option Text)
deriving DecidableEq, Repr

/-- `dbrow[index]`. -/
def ResultRow.column (row : ResultRow) (index : Nat) : Option Text :=
  (some row.href :: row.columns)[index]?.join

structure Bitmark where
  name : Text
  value : Option Text
  href : Option Text
deriving DecidableEq, Repr

/-- The arrays of bitmarks by their names, in the order of the hash. -/
abbrev Bitmarks := List (Text × List Bitmark)

/-- What `build_xml_response` sets of a `dav_response`. -/
structure DavResponse where
  status : Nat
  href : Text
  /-- The texts of `propresult.propstats`. -/
  propstats : List Text
deriving DecidableEq, Repr

/-! ## `search_mkresponse` -/

/-- `add_hyphens_to_uuid`. -/
def addHyphensToUuid (uuid : Text) : Text :=
  uuid.take 8 ++ '-' :: (uuid.drop 8).take 4 ++ '-' :: (uuid.drop 12).take 4 ++
    '-' :: (uuid.drop 16).take 4 ++ '-' :: (uuid.drop 20).take 12

open Library.Separators LockTokenFormat in
/-- The value of a property as it is shown. -/
def showPropval (server : ResponseServer) (prop : KeyProperty)
    (propval : Text) : Text :=
  if prop.nsId = server.namespaces.id "DAV:".toList then
    if prop.name = some "creationdate".toList ∨
        prop.name = some "lastmodified".toList then
      server.formatStrtime .iso8601 propval
    else if prop.name = some "getlastmodified".toList then
      server.formatStrtime .rfc822 propval
    else if prop.name = some "resource-id".toList then
      "<D:href>urn:uuid:".toList ++ addHyphensToUuid propval ++
        "</D:href>".toList
    else if prop.name = some "owner".toList then
      "<D:href>".toList ++ server.principalHref propval ++ "</D:href>".toList
    else server.quoteString propval
  else propval

/-- The column that comes next, `good_props` and `bad_props`. -/
structure MkresponseLoop where
  index : Nat
  goodProps : Option Text
  badProps : Option Text
deriving DecidableEq, Repr

/-- A turn of the loop in `search_mkresponse`. -/
def mkresponseTurn (server : ResponseServer) (dbrow : ResultRow)
    (loop : MkresponseLoop) (propKey : Text) : MkresponseLoop :=
  let prop := getPropFromPropKey propKey
  let namespaceName := server.namespaceMap prop.nsId
  match dbrow.column loop.index with
  | none | some [] =>
      { loop with
        index := loop.index + 1
        badProps := some (pstrcat
          [some (loop.badProps.getD " ".toList), some "<".toList, prop.name,
            some " xmlns=\"".toList, namespaceName, some "\"/>".toList]) }
  | some propval =>
      { loop with
        index := loop.index + 1
        goodProps := some (pstrcat
          [some (loop.goodProps.getD " ".toList), some "<".toList, prop.name,
            some " xmlns=\"".toList, namespaceName, some "\">".toList,
            some (showPropval server prop propval), some "</".toList,
            prop.name, some ">".toList, some server.debugCr]) }

/-- `search_mkresponse`. -/
def searchMkresponse (server : ResponseServer) (order : HashOrder)
    (sctx : SearchCtx) (dbrow : ResultRow)
    (goodProps badProps : Option Text) : MkresponseLoop :=
  ((order.arrange sctx.propMap).map Prod.fst).foldl
    (mkresponseTurn server dbrow) ⟨1, goodProps, badProps⟩

/-! ## Bitmarks -/

/-- `apr_array_push` to the array under the name, if there is one. -/
def pushBitmark (bitmarks : Bitmarks) (bitmark : Bitmark) : Bitmarks :=
  bitmarks.map fun entry =>
    if entry.1 = bitmark.name then (entry.1, entry.2 ++ [bitmark]) else entry

/--
The loop over the tokens of a row.  A name that was asked for takes the next
two tokens as its value and href, another token is skipped.
-/
def readBitmarks (bitmarks : Bitmarks) : List Text → Bitmarks
  | [] => bitmarks
  | [next] => pushBitmark bitmarks ⟨next, none, none⟩
  | [next, value] =>
      if next ∈ bitmarks.map Prod.fst then
        pushBitmark bitmarks ⟨next, some value, none⟩
      else readBitmarks bitmarks [value]
  | next :: value :: href :: others =>
      if next ∈ bitmarks.map Prod.fst then
        readBitmarks (pushBitmark bitmarks ⟨next, some value, some href⟩) others
      else readBitmarks bitmarks (value :: href :: others)

/-- `bitmarks_map` with an empty array for every name. -/
def emptyBitmarks (order : HashOrder) (sctx : SearchCtx) : Bitmarks :=
  (order.arrange sctx.bitmarksMap).map fun entry => (entry.1, [])

/-- `good_bitmarks` and `bad_bitmarks`. -/
structure BitmarkTexts where
  good : Option Text
  bad : Option Text
deriving DecidableEq, Repr

/-- The text of a bitmark behind those of others. -/
def bitmarkText (server : ResponseServer) (goodBitmarks : Text)
    (bitmark : Bitmark) : Text :=
  pstrcat
    [some goodBitmarks, some "<bitmark>".toList, some server.debugCr,
      some " <href>".toList, server.responseHref bitmark.href,
      some "</href>".toList, some server.debugCr, some " <".toList,
      some bitmark.name, some ">".toList, bitmark.value, some "</".toList,
      some bitmark.name, some ">".toList, some server.debugCr,
      some "</bitmark>".toList, some server.debugCr]

/-- A turn of the loop over the arrays of bitmarks. -/
def bitmarksTurn (server : ResponseServer) (texts : BitmarkTexts)
    (entry : Text × List Bitmark) : BitmarkTexts :=
  if entry.2 = [] then
    { texts with
      bad := some (texts.bad.getD " ".toList ++ "<".toList ++ entry.1 ++
        "/>".toList) }
  else
    { texts with
      good := some (entry.2.foldl (bitmarkText server)
        (texts.good.getD " ".toList)) }

/-! ## `build_xml_response` -/

/-- The texts of the properties with the status line. -/
def propstat (server : ResponseServer) (status : Text) (props : Option Text) :
    List Text :=
  match props with
  | none => []
  | some props =>
      ["<D:propstat>".toList ++ server.debugCr ++ "  <D:prop>".toList ++
          server.debugCr,
        props,
        "  </D:prop>".toList ++ server.debugCr ++ "  <D:status>".toList ++
          status ++ "</D:status>".toList ++ server.debugCr ++
          "</D:propstat>".toList ++ server.debugCr]

/-- The beginning of a `bitmarkstat` element. -/
def bitmarkstatBegin (server : ResponseServer) : Text :=
  "<bitmarkstat xmlns=\"http://limebits.com/ns/1.0/\">".toList ++ server.debugCr

def bitmarkstatEnd (server : ResponseServer) (status : Text) : Text :=
  "  <status>".toList ++ status ++ "</status>".toList ++ server.debugCr ++
    "</bitmarkstat>".toList ++ server.debugCr

def statusOk : Text :=
  "HTTP/1.1 200 OK".toList

def statusNotFound : Text :=
  "HTTP/1.1 404 Not Found".toList

/-- The texts of the bitmarks with their status lines. -/
def bitmarkstat (server : ResponseServer) (texts : BitmarkTexts) :
    List Text :=
  (match texts.good with
    | none => []
    | some good =>
        [bitmarkstatBegin server, good, bitmarkstatEnd server statusOk]) ++
  match texts.bad with
    | none => []
    | some bad =>
        [bitmarkstatBegin server ++ "  <bitmark>".toList ++ server.debugCr, bad,
          "  </bitmark>".toList ++ server.debugCr ++
            bitmarkstatEnd server statusNotFound]

/-- The variables of `build_xml_response`. -/
structure ResponseLoop where
  res : List DavResponse := []
  lastHref : Option Text := none
  goodProps : Option Text := none
  badProps : Option Text := none
  /-- Not set before the first row, and not read then. -/
  j : Nat := 0
  bitmarks : Option Bitmarks := none
  goodBitmarks : Option Text := none
  badBitmarks : Option Text := none
  dbrow : Option ResultRow := none
deriving DecidableEq, Repr

/-- What is collected is written to a response. -/
def ResponseLoop.output (server : ResponseServer) (loop : ResponseLoop)
    (lastHref : Text) : ResponseLoop :=
  let texts := (loop.bitmarks.getD []).foldl (bitmarksTurn server)
    ⟨loop.goodBitmarks, loop.badBitmarks⟩
  { loop with
    res := loop.res ++
      [{ status := 200
         href := lastHref
         propstats := propstat server statusOk loop.goodProps ++
          propstat server statusNotFound loop.badProps ++
          bitmarkstat server texts }]
    goodProps := none
    badProps := none
    goodBitmarks := none
    badBitmarks := none }

/-- A row with another href is begun with. -/
def ResponseLoop.begin (server : ResponseServer) (order : HashOrder)
    (sctx : SearchCtx) (loop : ResponseLoop) (dbrow : ResultRow) :
    ResponseLoop :=
  let made := searchMkresponse server order sctx dbrow
    loop.goodProps loop.badProps
  { loop with
    lastHref := some dbrow.href
    goodProps := made.goodProps
    badProps := made.badProps
    j := made.index
    bitmarks :=
      if sctx.bitmarkSupportReq then some (emptyBitmarks order sctx)
      else loop.bitmarks }

/-- The bitmarks of `dbrow[j]` are added. -/
def ResponseLoop.addBitmarks (loop : ResponseLoop) : ResponseLoop :=
  match loop.bitmarks, loop.dbrow.bind fun dbrow => dbrow.column loop.j with
  | some bitmarks, some text =>
      { loop with
        bitmarks := some (readBitmarks bitmarks (Segments.tokens '>' text)) }
  | _, _ => loop

/-- `!last_href || apr_strnatcmp(href, last_href) != 0 || i == results_count`. -/
def ResponseLoop.breaks (server : ResponseServer) (loop : ResponseLoop)
    (fetched : Option ResultRow) : Bool :=
  match loop.lastHref, fetched with
  | none, _ => true
  | some _, none => true
  | some lastHref, some dbrow =>
      server.order.strnatcmp dbrow.href lastHref != 0

/-- A turn of the loop; without a row the last one is left in `dbrow`. -/
def ResponseLoop.turn (server : ResponseServer) (order : HashOrder)
    (sctx : SearchCtx) (loop : ResponseLoop) (fetched : Option ResultRow) :
    ResponseLoop :=
  let loop := { loop with dbrow := fetched.or loop.dbrow }
  let loop :=
    if loop.breaks server fetched then
      let loop := match loop.lastHref with
        | none => loop
        | some lastHref => loop.output server lastHref
      match fetched with
      | none => loop
      | some dbrow => loop.begin server order sctx dbrow
    else loop
  loop.addBitmarks

/-- `build_xml_response`: `res` at the end. -/
def buildXmlResponse (server : ResponseServer) (order : HashOrder)
    (sctx : SearchCtx) (rows : List ResultRow) : List DavResponse :=
  ((rows.map some ++ [none]).foldl
    (ResponseLoop.turn server order sctx) {}).res

/-! ## What a response says -/

variable {server : ResponseServer} {order : HashOrder} {sctx : SearchCtx}
  {first row : ResultRow} {rest rows : List ResultRow}
  {res : List DavResponse}

/-- The column behind those of the properties. -/
def bitmarkColumn (sctx : SearchCtx) : Nat :=
  sctx.propMap.length + 1

/-- A row says which bitmarks the resource has. -/
def absorbBitmarks (sctx : SearchCtx) (bitmarks : Bitmarks)
    (row : ResultRow) : Bitmarks :=
  match row.column (bitmarkColumn sctx) with
  | none => bitmarks
  | some text => readBitmarks bitmarks (Segments.tokens '>' text)

/-- The bitmarks of a run, if they were asked for. -/
def collectedBitmarks (order : HashOrder) (sctx : SearchCtx)
    (run : List ResultRow) : Option Bitmarks :=
  if sctx.bitmarkSupportReq then
    some (run.foldl (absorbBitmarks sctx) (emptyBitmarks order sctx))
  else none

/-- The properties of a row. -/
def rowProps (server : ResponseServer) (order : HashOrder)
    (sctx : SearchCtx) (row : ResultRow) : MkresponseLoop :=
  searchMkresponse server order sctx row none none

/-- The texts for the properties of a row and for bitmarks. -/
def propstats (server : ResponseServer) (props : MkresponseLoop)
    (bitmarks : Option Bitmarks) : List Text :=
  propstat server statusOk props.goodProps ++
    propstat server statusNotFound props.badProps ++
    bitmarkstat server
      ((bitmarks.getD []).foldl (bitmarksTurn server) ⟨none, none⟩)

/--
A response is one to a run of rows: it has their href, the properties, which
are those of the first row, and the bitmarks of all rows.
-/
structure IsResponseTo (server : ResponseServer) (order : HashOrder)
    (sctx : SearchCtx) (response : DavResponse) (run : List ResultRow) :
    Prop where
  status : response.status = 200
  href : ∀ row ∈ run, response.href = row.href
  propstats : ∀ first ∈ run.head?,
    response.propstats =
      propstats server (rowProps server order sctx first)
        (collectedBitmarks order sctx run)

/-- The longest pieces of adjacent rows with one href. -/
def hrefRuns (rows : List ResultRow) : List (List ResultRow) :=
  rows.splitBy fun row next => decide (row.href = next.href)

/-- The comparison tells the hrefs of adjacent rows apart, if they differ. -/
def HrefsToldApart (server : ResponseServer) (rows : List ResultRow) : Prop :=
  rows.IsChain fun row next =>
    row.href ≠ next.href → server.order.strnatcmp next.href row.href ≠ 0

/-! ## The loop collects groups -/

/-- The bitmarks are in the column behind the properties. -/
theorem index_searchMkresponse (goodProps badProps : Option Text) :
    (searchMkresponse server order sctx row goodProps badProps).index =
      bitmarkColumn sctx := by
  have counts : ∀ (keys : List Text) (loop : MkresponseLoop),
      (keys.foldl (mkresponseTurn server row) loop).index =
        loop.index + keys.length := by
    intro keys
    induction keys with
    | nil => intro loop; rfl
    | cons key keys induction =>
        intro loop
        have next : (mkresponseTurn server row loop key).index =
            loop.index + 1 := by
          unfold mkresponseTurn
          split
          · rfl
          · rfl
          · rfl
        rw [List.foldl_cons, induction, next, List.length_cons]
        omega
  rw [searchMkresponse, counts, List.length_map,
    (order.perm sctx.propMap).length_eq, bitmarkColumn, Nat.add_comm]

/-- The response that is written for a group of rows. -/
def groupResponse (server : ResponseServer) (order : HashOrder)
    (sctx : SearchCtx) (first : ResultRow) (rest : List ResultRow) :
    DavResponse where
  status := 200
  href := first.href
  propstats := propstats server (rowProps server order sctx first)
    (collectedBitmarks order sctx (first :: rest))

/-- The variables while the group that begins with a row is collected. -/
def collecting (server : ResponseServer) (order : HashOrder)
    (sctx : SearchCtx) (res : List DavResponse) (first : ResultRow)
    (rest : List ResultRow) : ResponseLoop where
  res := res
  lastHref := some first.href
  goodProps := (rowProps server order sctx first).goodProps
  badProps := (rowProps server order sctx first).badProps
  j := bitmarkColumn sctx
  bitmarks := collectedBitmarks order sctx (first :: rest)
  dbrow := (first :: rest).getLast?

/-- A row has been begun with, and its bitmarks are still to be added. -/
def begun (server : ResponseServer) (order : HashOrder)
    (sctx : SearchCtx) (res : List DavResponse) (row : ResultRow) :
    ResponseLoop :=
  { collecting server order sctx res row [] with
    bitmarks :=
      if sctx.bitmarkSupportReq then some (emptyBitmarks order sctx)
      else none }

theorem collectedBitmarks_concat (run : List ResultRow) :
    collectedBitmarks order sctx (run ++ [row]) =
      (collectedBitmarks order sctx run).map fun bitmarks =>
        absorbBitmarks sctx bitmarks row := by
  unfold collectedBitmarks
  split
  · rw [List.foldl_append]
    rfl
  · rfl

/-- The bitmarks of a row are added to those that are there. -/
theorem addBitmarks_eq
    {loop : ResponseLoop}
    (fetched : loop.dbrow = some row)
    (index : loop.j = bitmarkColumn sctx) :
    loop.addBitmarks =
      { loop with
        bitmarks := loop.bitmarks.map fun bitmarks =>
          absorbBitmarks sctx bitmarks row } := by
  rcases loop with ⟨res, lastHref, goodProps, badProps, j, bitmarks,
    goodBitmarks, badBitmarks, dbrow⟩
  subst fetched
  subst index
  cases bitmarks with
  | none => rfl
  | some bitmarks =>
      unfold ResponseLoop.addBitmarks absorbBitmarks
      simp only [Option.bind_some, Option.map_some]
      generalize row.column (bitmarkColumn sctx) = column
      cases column with
      | none => rfl
      | some text => rfl

theorem addBitmarks_begun :
    (begun server order sctx res row).addBitmarks =
      collecting server order sctx res row [] := by
  rw [addBitmarks_eq rfl rfl]
  unfold begun collecting collectedBitmarks
  split
  · rfl
  · rfl

theorem begin_eq
    {loop : ResponseLoop}
    (fresh : loop.goodProps = none ∧ loop.badProps = none ∧
      loop.goodBitmarks = none ∧ loop.badBitmarks = none)
    (without : sctx.bitmarkSupportReq = false → loop.bitmarks = none)
    (fetched : loop.dbrow = some row) :
    loop.begin server order sctx row =
      begun server order sctx loop.res row := by
  rcases loop with ⟨res, lastHref, goodProps, badProps, j, bitmarks,
    goodBitmarks, badBitmarks, dbrow⟩
  rcases fresh with ⟨rfl, rfl, rfl, rfl⟩
  cases fetched
  unfold ResponseLoop.begin begun collecting
  simp only [index_searchMkresponse]
  cases required : sctx.bitmarkSupportReq with
  | true => rfl
  | false =>
      cases without required
      rfl

/-- The first row is begun with. -/
theorem turn_first :
    ResponseLoop.turn server order sctx {} (some row) =
      collecting server order sctx [] row [] := by
  have begins : ResponseLoop.begin server order sctx
      { dbrow := some row } row = begun server order sctx [] row :=
    begin_eq ⟨rfl, rfl, rfl, rfl⟩ (fun _ => rfl) rfl
  have turn : ResponseLoop.turn server order sctx {} (some row) =
      (ResponseLoop.begin server order sctx
        { dbrow := some row } row).addBitmarks := rfl
  rw [turn, begins, addBitmarks_begun]

/-- A row with an equal href is added to the group. -/
theorem turn_same
    (equal : server.order.strnatcmp row.href first.href = 0) :
    (collecting server order sctx res first rest).turn server order sctx
        (some row) =
      collecting server order sctx res first (rest ++ [row]) := by
  have stays : ResponseLoop.breaks server
      { collecting server order sctx res first rest with dbrow := some row }
      (some row) = false := by
    show (server.order.strnatcmp row.href first.href != 0) = false
    rw [equal]
    rfl
  have turn : (collecting server order sctx res first rest).turn server order
      sctx (some row) =
        ResponseLoop.addBitmarks
          { collecting server order sctx res first rest with
            dbrow := some row } := by
    unfold ResponseLoop.turn
    simp only [Option.some_or, stays, Bool.false_eq_true, if_false]
  rw [turn, addBitmarks_eq rfl rfl]
  unfold collecting
  rw [← List.cons_append, collectedBitmarks_concat, List.getLast?_concat]

theorem turn_break
    (differ : server.order.strnatcmp row.href first.href ≠ 0) :
    (collecting server order sctx res first rest).turn server order sctx
        (some row) =
      collecting server order sctx
        (res ++ [groupResponse server order sctx first rest]) row [] := by
  have breaks : ResponseLoop.breaks server
      { collecting server order sctx res first rest with dbrow := some row }
      (some row) = true :=
    bne_iff_ne.mpr differ
  have without : sctx.bitmarkSupportReq = false →
      collectedBitmarks order sctx (first :: rest) = none := by
    intro required
    rw [collectedBitmarks, required]
    rfl
  have turn : (collecting server order sctx res first rest).turn server order
      sctx (some row) =
        (ResponseLoop.begin server order sctx
          { collecting server order sctx res first rest with
            res := res ++ [groupResponse server order sctx first rest]
            goodProps := none
            badProps := none
            dbrow := some row } row).addBitmarks := by
    unfold ResponseLoop.turn
    simp only [Option.some_or, breaks, if_true]
    rfl
  rw [turn, begin_eq ⟨rfl, rfl, rfl, rfl⟩ without rfl, addBitmarks_begun]

/-- Behind the last row the last response is written. -/
theorem res_turn_none :
    ((collecting server order sctx res first rest).turn server order sctx
        none).res =
      res ++ [groupResponse server order sctx first rest] := by
  have keeps : ∀ loop : ResponseLoop, loop.addBitmarks.res = loop.res := by
    intro loop
    unfold ResponseLoop.addBitmarks
    split
    · rfl
    · rfl
  unfold ResponseLoop.turn
  rw [keeps]
  rfl

/-- Two hrefs that are equal in natural order. -/
def sameHref (server : ResponseServer) (href lastHref : Text) : Bool :=
  server.order.strnatcmp href lastHref == 0

theorem sameHref_self (href : Text) : sameHref server href href = true :=
  beq_iff_eq.mpr (server.order.self href)

/-- The response for a list of rows; an empty one is never collected. -/
def responseOf (server : ResponseServer) (order : HashOrder)
    (sctx : SearchCtx) (run : List ResultRow) : Option DavResponse :=
  match run with
  | [] => none
  | first :: rest => some (groupResponse server order sctx first rest)

/-- The loop writes a response for each group that the comparison makes. -/
theorem foldl_turn_collecting :
    (((rows.map some ++ [none]).foldl (ResponseLoop.turn server order sctx)
        (collecting server order sctx res first rest)).res).map some =
      res.map some ++
        (ControlBreak.groupsFrom ResultRow.href (sameHref server) first rest
          rows).map (responseOf server order sctx) := by
  induction rows generalizing res first rest with
  | nil =>
      rw [List.map_nil, List.nil_append, List.foldl_cons, List.foldl_nil,
        res_turn_none, List.map_append]
      rfl
  | cons row rows induction =>
      rw [List.map_cons, List.cons_append, List.foldl_cons,
        ControlBreak.groupsFrom]
      by_cases equal : server.order.strnatcmp row.href first.href = 0
      · have same : sameHref server row.href first.href = true :=
          beq_iff_eq.mpr equal
        rw [turn_same equal, induction, if_pos same]
      · have differ : ¬ sameHref server row.href first.href = true :=
          fun same => equal (beq_iff_eq.mp same)
        rw [turn_break equal, induction, if_neg differ, List.map_append,
          List.append_assoc]
        rfl

theorem map_buildXmlResponse (rows : List ResultRow) :
    (buildXmlResponse server order sctx rows).map some =
      (ControlBreak.groups ResultRow.href (sameHref server) rows).map
        (responseOf server order sctx) := by
  cases rows with
  | nil => rfl
  | cons row rows =>
      rw [buildXmlResponse, List.map_cons, List.cons_append, List.foldl_cons,
        turn_first, foldl_turn_collecting]
      rfl

theorem length_buildXmlResponse (rows : List ResultRow) :
    (buildXmlResponse server order sctx rows).length =
      (ControlBreak.groups ResultRow.href (sameHref server) rows).length := by
  have lengths :=
    congrArg List.length (@map_buildXmlResponse server order sctx rows)
  rwa [List.length_map, List.length_map] at lengths

/-! ## The groups are the runs -/

theorem hrefsToldApart_iff :
    HrefsToldApart server rows ↔
      ControlBreak.TellsApart ResultRow.href (sameHref server) rows := by
  have conditions : ∀ row next : ResultRow,
      (row.href ≠ next.href → server.order.strnatcmp next.href row.href ≠ 0) ↔
        (row.href ≠ next.href →
          sameHref server next.href row.href = false) := by
    intro row next
    rw [sameHref, beq_eq_false_iff_ne]
  constructor
  · intro apart
    exact apart.imp fun row next => (conditions row next).mp
  · intro apart
    exact apart.imp fun row next => (conditions row next).mpr

theorem runs_eq_hrefRuns (rows : List ResultRow) :
    ControlBreak.runs ResultRow.href rows = hrefRuns rows :=
  ControlBreak.runs_eq_splitBy rows

/-- All rows of a run have the href of the first one. -/
theorem href_eq_of_mem_hrefRuns
    (member : first :: rest ∈ hrefRuns rows) :
    ∀ row ∈ first :: rest, row.href = first.href := by
  have chain := List.isChain_of_mem_splitBy member
  have alike : (first :: rest).IsChain fun row next =>
      row.href = next.href :=
    chain.imp fun row next same => of_decide_eq_true same
  have pairwise : (first :: rest).Pairwise fun row next =>
      row.href = next.href := alike.pairwise
  intro row inRun
  rcases List.mem_cons.mp inRun with rfl | later
  · rfl
  · exact (List.rel_of_pairwise_cons pairwise later).symm

theorem isResponseTo_of_mem_hrefRuns
    {run : List ResultRow} {response : DavResponse}
    (member : run ∈ hrefRuns rows)
    (made : some response = responseOf server order sctx run) :
    IsResponseTo server order sctx response run := by
  cases run with
  | nil => cases made
  | cons first rest =>
      rcases Option.some.inj made with rfl
      refine ⟨rfl, ?_, ?_⟩
      · intro row inRun
        exact (href_eq_of_mem_hrefRuns member row inRun).symm
      · intro head isHead
        rcases Option.some.inj isHead with rfl
        rfl

/--
The responses are those to the runs of rows with one href if and only if
natural order tells different hrefs of adjacent rows apart.
-/
theorem buildXmlResponse_answersRuns_iff
    (server : ResponseServer) (order : HashOrder) (sctx : SearchCtx)
    (rows : List ResultRow) :
    List.Forall₂ (IsResponseTo server order sctx)
        (buildXmlResponse server order sctx rows) (hrefRuns rows) ↔
      HrefsToldApart server rows := by
  rw [hrefsToldApart_iff]
  constructor
  · intro answers
    apply (ControlBreak.length_groups_eq_iff sameHref_self).mp
    rw [runs_eq_hrefRuns, ← answers.length_eq, length_buildXmlResponse]
  · intro apart
    have responses : (buildXmlResponse server order sctx rows).map some =
        (hrefRuns rows).map (responseOf server order sctx) := by
      rw [map_buildXmlResponse,
        ControlBreak.groups_eq_runs sameHref_self apart, runs_eq_hrefRuns]
    have paired := List.forall₂_eq_eq_eq.symm ▸ responses
    rw [List.forall₂_map_left_iff, List.forall₂_map_right_iff] at paired
    refine List.forall₂_iff_get.mpr ⟨paired.length_eq, ?_⟩
    intro index inResponses inRuns
    exact isResponseTo_of_mem_hrefRuns (List.get_mem _ _)
      ((List.forall₂_iff_get.mp paired).2 index inResponses inRuns)

/-! ## The comparison of APR -/

/-- Two numbers that begin with a zero: the first digit that differs decides. -/
def compareLeft : Text → Text → Int
  | [], [] => 0
  | [], other :: _ => if other.isDigit then -1 else 0
  | char :: _, [] => if char.isDigit then 1 else 0
  | char :: text, other :: others =>
      if !char.isDigit && !other.isDigit then 0
      else if !char.isDigit then -1
      else if !other.isDigit then 1
      else if char < other then -1
      else if other < char then 1
      else compareLeft text others

/-- Two numbers: the longer one is greater, then the first digit decides. -/
def compareRight (bias : Int) : Text → Text → Int
  | [], [] => bias
  | [], other :: _ => if other.isDigit then -1 else bias
  | char :: _, [] => if char.isDigit then 1 else bias
  | char :: text, other :: others =>
      if !char.isDigit && !other.isDigit then bias
      else if !char.isDigit then -1
      else if !other.isDigit then 1
      else
        compareRight
          (if bias ≠ 0 then bias
            else if char < other then -1
            else if other < char then 1
            else 0)
          text others

/-- Blanks, tabs and line ends. -/
def isSpace (char : Char) : Bool :=
  char == ' ' || decide ('\t' ≤ char ∧ char ≤ '\r')

/-- The numbers that two texts begin with. -/
def compareNumbers : Text → Text → Int
  | char :: text, other :: others =>
      if char.isDigit && other.isDigit then
        if char == '0' || other == '0' then
          compareLeft (char :: text) (other :: others)
        else compareRight 0 (char :: text) (other :: others)
      else 0
  | _, _ => 0

/-- Texts of at most that length are compared, blanks being skipped. -/
def compareNaturally : Nat → Text → Text → Int
  | 0, _, _ => 0
  | length + 1, text, others =>
      let text := text.dropWhile isSpace
      let others := others.dropWhile isSpace
      if compareNumbers text others ≠ 0 then compareNumbers text others
      else
        match text, others with
        | [], [] => 0
        | [], _ => -1
        | _, [] => 1
        | char :: text, other :: others =>
            if char < other then -1
            else if other < char then 1
            else compareNaturally length text others

theorem compareLeft_self (text : Text) : compareLeft text text = 0 := by
  induction text with
  | nil => rfl
  | cons char text induction =>
      rw [compareLeft, induction]
      cases char.isDigit with
      | true => simp
      | false => rfl

theorem compareRight_self (text : Text) : compareRight 0 text text = 0 := by
  induction text with
  | nil => rfl
  | cons char text induction =>
      rw [compareRight]
      cases char.isDigit with
      | true => simpa using induction
      | false => rfl

theorem compareNumbers_self (text : Text) : compareNumbers text text = 0 := by
  cases text with
  | nil => rfl
  | cons char text =>
      rw [compareNumbers, compareLeft_self, compareRight_self]
      split
      · split
        · rfl
        · rfl
      · rfl

theorem compareNaturally_self (length : Nat) (text : Text) :
    compareNaturally length text text = 0 := by
  induction length generalizing text with
  | zero => rfl
  | succ length induction =>
      simp only [compareNaturally, compareNumbers_self]
      cases text.dropWhile isSpace with
      | nil => rfl
      | cons char rest => simpa using induction rest

/-- Natural order as the library has it. -/
def aprNaturalOrder : NaturalOrder where
  strnatcmp := fun text other =>
    compareNaturally (text.length + other.length + 1) text other
  self := fun text => compareNaturally_self _ text

/-- A server that shows values as they are. -/
def plainResponseServer : ResponseServer where
  order := aprNaturalOrder
  namespaces := smallServer.namespaces
  namespaceMap := fun _ => none
  debugCr := []
  formatStrtime := fun _ time => time
  principalHref := id
  quoteString := id
  responseHref := id

/-- Two resources with hrefs that only a blank tells apart. -/
def blankRows : List ResultRow :=
  [⟨"/home/a b".toList, []⟩, ⟨"/home/ab".toList, []⟩]

theorem not_buildXmlResponse_answersRuns :
    ¬ ∀ (server : ResponseServer) (order : HashOrder) (sctx : SearchCtx)
      (rows : List ResultRow),
      List.Forall₂ (IsResponseTo server order sctx)
        (buildXmlResponse server order sctx rows) (hrefRuns rows) := by
  intro answers
  have lengths :=
    (answers plainResponseServer keptOrder {} blankRows).length_eq
  have responses : (buildXmlResponse plainResponseServer keptOrder {}
      blankRows).length = 1 := by decide +kernel
  have runs : (hrefRuns blankRows).length = 2 := by decide +kernel
  rw [responses, runs] at lengths
  exact absurd lengths (by decide)

end Limestone.SearchResponse
