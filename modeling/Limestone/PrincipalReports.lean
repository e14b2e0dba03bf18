import Limestone.AprXml
import Limestone.DbmsAcl
import Limestone.Library.Sql

/-!
# The reports on principals: `acl.c`

A search goes over the resources, over the clauses of the request, and over
the requested properties; its clauses are looked for in a child of the root
that no request has.  The other report is about the principals of an ACL, in a
list that a helper makes behind a copy of the pointer.
-/

namespace Limestone.PrincipalReports

open Library
open AprXml
open DbmsAcl

/-- `lpr_hash`. -/
abbrev LprHash := List (Text × Text)

/-- The fields of a `dav_repos_resource` that are reported. -/
structure ReportResource where
  uri : Text
  /-- What `dav_repos_build_lpr_hash` puts into the hash. -/
  liveProps : LprHash
  /-- The hash that was built before; `none` is NULL. -/
  lprHash : Option LprHash

/-! ## The answer -/

/-- How an answer is written. -/
structure Output where
  debugCr : Text
  /-- `apr_xml_quote_string` without quotes. -/
  xmlQuoteString : Text → Text

def multistatusOpen (output : Output) : Text :=
  "<D:multistatus xmlns:D=\"DAV:\">".toList ++ output.debugCr

def multistatusClose : Text :=
  "</D:multistatus>".toList

/-- What is sent in front of the properties of a resource. -/
def responseOpen (output : Output) (uri : Text) : List Text :=
  ["<D:response>".toList, davReposMkHref output.xmlQuoteString uri,
    "<D:propstat>".toList, "<D:prop>".toList]

/-- What is sent behind the properties of a resource. -/
def responseClose (output : Output) : List Text :=
  ["</D:prop>".toList,
    "<D:status>HTTP/1.1 200 OK</D:status>".toList ++ output.debugCr,
    "</D:propstat>".toList, "</D:response>".toList]

/-- The element of a property with its value. -/
def propText (output : Output) (name val : Text) : Text :=
  "<D:".toList ++ name ++ ">".toList ++ output.xmlQuoteString val ++
    "</D:".toList ++ name ++ ">".toList ++ output.debugCr

/-- The loop over the requested properties, `props` being what is left. -/
def propLoop (output : Output) (lprHash : Option LprHash) :
    List AprXmlElem → Except Fault (List Text)
  | [] => .ok []
  | props :: next => do
      let hash ← deref lprHash
      let val ← deref (hash.lookup props.name)
      let rest ← propLoop output lprHash next
      return propText output props.name val :: rest

/-! ## `dav_repos_deliver_principal_property_search` -/

def propertySearch : Text := "property-search".toList
def principalPropertySearch : Text := "principal-property-search".toList
def prop : Text := "prop".toList
def «match» : Text := "match".toList

/-- The loop over the clauses, with the flag and the hash of the resource. -/
def clauseLoop (dbR : ReportResource) :
    List AprXmlElem → Bool → Option LprHash →
      Except Fault (Bool × Option LprHash)
  | [], flag, lprHash => .ok (flag, lprHash)
  | _ :: _, false, lprHash => .ok (false, lprHash)
  | elem :: next, true, lprHash =>
      if elem.name = propertySearch then do
        let found ← deref (davFindChild elem prop).head?
        let sought ← deref (davFindChild elem «match»).head?
        let first ← deref found.children.head?
        let val ← deref (dbR.liveProps.lookup first.name)
        let text ← deref sought.firstCdata.head?
        clauseLoop dbR next (decide (text <:+: val)) (some dbR.liveProps)
      else clauseLoop dbR next true lprHash

/-- The loop over the resources; `props` is moved on by the loop inside. -/
def resourceLoop (output : Output) (principalPropertySearch : List AprXmlElem) :
    List ReportResource → List AprXmlElem → Except Fault (List Text)
  | [], _ => .ok []
  | dbR :: next, props => do
      let clauses ← deref principalPropertySearch.head?
      let (flag, lprHash) ← clauseLoop dbR clauses.children true dbR.lprHash
      if flag then
        let requested ← deref props.head?
        let elems ← propLoop output lprHash requested.children
        let rest ← resourceLoop output principalPropertySearch next []
        return responseOpen output dbR.uri ++ elems ++
          responseClose output ++ rest
      else resourceLoop output principalPropertySearch next props

/-- `dav_repos_deliver_principal_property_search`, for a listing. -/
def deliverPrincipalPropertySearch (output : Output) (root : AprXmlElem)
    (listing : List ReportResource) : Except Fault (List Text) := do
  let responses ← resourceLoop output
    (davFindChild root principalPropertySearch) listing (davFindChild root prop)
  return multistatusOpen output :: responses ++ [multistatusClose]

/-! ## `dav_repos_deliver_acl_principal_prop_set` -/

/-- The record of `dav_repos_get_prin_by_name`, for a principal with a URL. -/
def prinResource (makeFromName : Text → Option ReportResource) (name : Text) :
    Option ReportResource :=
  if name = "all".toList ∨ name = "authenticated".toList ∨
      name = "unauthenticated".toList then none
  else makeFromName name

/-- The names that `dbms_get_principals` selects. -/
def principalNames (tables : AclTables) (serialno : Id) : List Text :=
  (((Sql.crossJoin tables.principals tables.aces).filter fun pair =>
    pair.2.principalId == pair.1.1 && pair.2.resourceId == serialno).map
      fun pair => pair.1.2).dedup

/--
`dbms_get_principals`: what it returns, and what its own parameter `principals`
is at the end.  The pointer of the caller is copied, and stays as it is.
-/
def dbmsGetPrincipals (makeFromName : Text → Option ReportResource)
    (tables : AclTables) (serialno : Id) (principals : List ReportResource) :
    Int × List ReportResource :=
  (0, (principalNames tables serialno).foldl (fun principals name =>
    match prinResource makeFromName name with
    | some iter => iter :: principals
    | none => principals) principals)

/-- The loop over the principals. -/
def principalLoop (output : Output) :
    List ReportResource → List AprXmlElem → Except Fault (List Text)
  | [], _ => .ok []
  | principals :: next, props => do
      let requested ← deref props.head?
      let elems ← propLoop output (some principals.liveProps)
        requested.children
      let rest ← principalLoop output next []
      return responseOpen output principals.uri ++ elems ++
        responseClose output ++ rest

/-- `dav_repos_deliver_acl_principal_prop_set`. -/
def deliverAclPrincipalPropSet (output : Output)
    (makeFromName : Text → Option ReportResource) (tables : AclTables)
    (serialno : Id) (root : AprXmlElem) : Except Fault (List Text) := do
  let props := davFindChild root prop
  let principals : List ReportResource := []
  let _returned := (dbmsGetPrincipals makeFromName tables serialno
    principals).1
  let responses ← principalLoop output principals props
  return multistatusOpen output :: responses ++ [multistatusClose]

/-! ## Requests -/

/-- An element of the namespace `DAV:` without attributes. -/
def davElem (name : Text) (firstCdata : List Text)
    (children : List AprXmlElem) : AprXmlElem :=
  .mk davNs name [] firstCdata children

/-- A `DAV:prop` with the namespaces and names of properties. -/
def propElem (names : List (Text × Text)) : AprXmlElem :=
  davElem prop [] (names.map fun name => .mk name.1 name.2 [] [] [])

/-- A clause: properties, and the text that all of them must hold. -/
structure Clause where
  first : Text × Text
  others : List (Text × Text)
  text : Text

def Clause.elem (clause : Clause) : AprXmlElem :=
  davElem propertySearch []
    [propElem (clause.first :: clause.others),
      davElem «match» [clause.text] []]

def applyToPrincipalCollectionSet : Text :=
  "apply-to-principal-collection-set".toList

/-- The root of a `DAV:principal-property-search`. -/
def searchRoot (clauses : List Clause) (requested : List (Text × Text))
    (applies : Bool) : AprXmlElem :=
  davElem principalPropertySearch []
    (clauses.map Clause.elem ++ propElem requested ::
      if applies then [davElem applyToPrincipalCollectionSet [] []] else [])

/-- The root of a `DAV:acl-principal-prop-set`. -/
def propSetRoot (requested : List (Text × Text)) : AprXmlElem :=
  davElem "acl-principal-prop-set".toList [] [propElem requested]

structure Server extends Output where
  /-- `dav_principal_make_from_url` for the URL of a name. -/
  makeFromName : Text → Option ReportResource

/-- A report on principals with what it is about. -/
inductive Report where
  | principalPropertySearch (clauses : List Clause)
      (requested : List (Text × Text)) (applies : Bool)
      (collection : ReportResource) (children : List ReportResource)
  | aclPrincipalPropSet (requested : List (Text × Text)) (tables : AclTables)
      (serialno : Id)

/-- The pieces that are sent, unless the run dies. -/
def deliver (server : Server) : Report → Except Fault (List Text)
  | .principalPropertySearch clauses requested applies collection children =>
      deliverPrincipalPropertySearch server.toOutput
        (searchRoot clauses requested applies) (collection :: children)
  | .aclPrincipalPropSet requested tables serialno =>
      deliverAclPrincipalPropSet server.toOutput server.makeFromName tables
        serialno (propSetRoot requested)

/-! ## Complete answers -/

/-- A resource with an element for each requested property. -/
def response (output : Output) (requested : List (Text × Text))
    (dbR : ReportResource) : List Text :=
  responseOpen output dbR.uri ++
    requested.map (fun name =>
      propText output name.2 ((dbR.liveProps.lookup name.2).getD [])) ++
    responseClose output

/-- The answer about some resources. -/
def answer (output : Output) (requested : List (Text × Text))
    (resources : List ReportResource) : Text :=
  multistatusOpen output ++
    (resources.flatMap (response output requested)).flatten ++
      multistatusClose

/-- The run ends, and has sent the text. -/
def Sends (server : Server) (report : Report) (text : Text) : Prop :=
  ∃ pieces, deliver server report = .ok pieces ∧ pieces.flatten = text

/-- The properties of the resource hold the text of the clause. -/
def Clause.holds (clause : Clause) (dbR : ReportResource) : Bool :=
  (clause.first :: clause.others).all fun name =>
    match dbR.liveProps.lookup name.2 with
    | some val => decide (clause.text <:+: val)
    | none => false

/-- The principal of a name holds an ACE of the resource. -/
def HoldsAce (tables : AclTables) (serialno : Id) (name : Text) : Prop :=
  ∃ principal ∈ tables.principals, ∃ ace ∈ tables.aces,
    principal.2 = name ∧ ace.principalId = principal.1 ∧
      ace.resourceId = serialno

/-- The resources that are asked for, and no others, have their response. -/
def AnswersCompletely (server : Server) (report : Report) : Prop :=
  match report with
  | .principalPropertySearch clauses requested _ collection children =>
      Sends server report (answer server.toOutput requested
        ((collection :: children).filter fun dbR =>
          clauses.all fun clause => clause.holds dbR))
  | .aclPrincipalPropSet requested tables serialno =>
      ∃ names : List Text, names.Nodup ∧
        (∀ name, name ∈ names ↔ HoldsAce tables serialno name ∧
          (prinResource server.makeFromName name).isSome) ∧
        Sends server report (answer server.toOutput requested
          (names.filterMap (prinResource server.makeFromName)))

/-- The report is about an ACL in which no principal has a URL. -/
def HasNobody (server : Server) : Report → Prop
  | .principalPropertySearch .. => False
  | .aclPrincipalPropSet _ tables serialno =>
      ∀ name, HoldsAce tables serialno name →
        prinResource server.makeFromName name = none

/-! ## The search -/

variable {server : Server} {clauses : List Clause}
  {requested : List (Text × Text)} {applies : Bool} {tables : AclTables}
  {serialno : Id}

/-- No request has a second `DAV:principal-property-search` in its root. -/
theorem davFindChild_searchRoot :
    davFindChild (searchRoot clauses requested applies)
      principalPropertySearch = [] := by
  have clauseName : isNamed principalPropertySearch
      (davElem propertySearch [] []) = false := by
    decide
  have propName : isNamed principalPropertySearch
      (davElem prop [] []) = false := by
    decide
  have setName : isNamed principalPropertySearch
      (davElem applyToPrincipalCollectionSet [] []) = false := by
    decide
  rw [davFindChild_eq_nil]
  intro child member
  rcases List.mem_append.mp member with clause | rest
  · rcases List.mem_map.mp clause with ⟨clause, -, rfl⟩
    exact clauseName
  · rcases List.mem_cons.mp rest with rfl | last
    · exact propName
    · cases applies with
      | false => cases last
      | true =>
          rw [List.mem_singleton.mp last]
          exact setName

/-- The search dies at its first resource. -/
theorem deliver_principalPropertySearch (server : Server)
    (collection : ReportResource) (children : List ReportResource) :
    deliver server (.principalPropertySearch clauses requested applies
      collection children) = .error .nullPointer := by
  rw [deliver, deliverPrincipalPropertySearch, davFindChild_searchRoot,
    resourceLoop]
  rfl

theorem not_sends_principalPropertySearch
    (collection : ReportResource) (children : List ReportResource)
    (text : Text) :
    ¬ Sends server (.principalPropertySearch clauses requested applies
      collection children) text := by
  rintro ⟨pieces, sent, -⟩
  rw [deliver_principalPropertySearch] at sent
  cases sent

/-! ## The principals of an ACL -/

/-- The report on an ACL has no response. -/
theorem sends_aclPrincipalPropSet
    {text : Text} :
    Sends server (.aclPrincipalPropSet requested tables serialno) text ↔
      text = answer server.toOutput requested [] := by
  constructor
  · rintro ⟨pieces, sent, rfl⟩
    rcases Except.ok.inj sent with rfl
    simp [answer]
  · rintro rfl
    refine ⟨_, rfl, ?_⟩
    simp [answer]

/-- An answer without a response is about no resource. -/
theorem answer_eq_answer_nil
    {output : Output} {resources : List ReportResource}
    (same : answer output requested resources =
      answer output requested []) :
    resources = [] := by
  cases resources with
  | nil => rfl
  | cons dbR next =>
      rw [answer, answer, List.append_cancel_right_eq,
        List.append_cancel_left_eq, List.flatMap_nil, List.flatten_nil,
        List.flatten_eq_nil_iff] at same
      have opening : "<D:response>".toList = [] :=
        same _ List.mem_cons_self
      cases opening

/-- A report is complete iff it is about an ACL in which nobody has a URL. -/
theorem answersCompletely_iff (server : Server) (report : Report) :
    AnswersCompletely server report ↔ HasNobody server report := by
  cases report with
  | principalPropertySearch clauses requested applies collection children =>
      constructor
      · exact not_sends_principalPropertySearch collection children _
      · exact False.elim
  | aclPrincipalPropSet requested tables serialno =>
      constructor
      · rintro ⟨names, -, listed, sent⟩ name holds
        have empty := answer_eq_answer_nil (sends_aclPrincipalPropSet.mp sent)
        rw [List.filterMap_eq_nil_iff] at empty
        by_contra some
        have member := (listed name).mpr
          ⟨holds, Option.isSome_iff_ne_none.mpr some⟩
        exact some (empty name member)
      · intro nobody
        refine ⟨[], List.nodup_nil, ?_, sends_aclPrincipalPropSet.mpr rfl⟩
        intro name
        constructor
        · intro none
          cases none
        · rintro ⟨holds, some⟩
          rw [nobody name holds] at some
          cases some

/-! ## A search for a user -/

def namedServer : Server where
  debugCr := []
  xmlQuoteString := id
  makeFromName := fun name =>
    some
      { uri := "/users/".toList ++ name
        liveProps := [("displayname".toList, name)]
        lprHash := none }

def displayname : Text × Text :=
  (davNs, "displayname".toList)

/-- The display name of one user holds the text. -/
def fredSearch : Report :=
  .principalPropertySearch
    [{ first := displayname, others := [], text := "fred".toList }]
    [displayname] false
    { uri := "/users".toList
      liveProps := [("displayname".toList, "users".toList)]
      lprHash := none }
    [{ uri := "/users/fred".toList
       liveProps := [("displayname".toList, "fred".toList)]
       lprHash := none }]

/-- The run dies before it answers. -/
theorem not_answersCompletely : ¬ AnswersCompletely namedServer fredSearch :=
  not_sends_principalPropertySearch _ _ _

end Limestone.PrincipalReports
