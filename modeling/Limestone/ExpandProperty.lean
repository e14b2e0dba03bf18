import Limestone.AprXml
import Limestone.Library.Loop

/-!
# The expand-property report: `version.c`

The report follows the hrefs in the properties of a resource, and for each of
them goes down one level in the request.  So it ends, whatever the resources
refer to.  The elements it takes below another one are the first
`DAV:property` and all its siblings from there on.
-/

namespace Limestone.ExpandProperty

open Library
open AprXml

/-! ## What is sent -/

/-- What one call of `send_xml` sends. -/
inductive Piece where
  /-- `<D:tag>` -/
  | opening (tag : Text)
  /-- `</D:tag>` -/
  | closing (tag : Text)
  | text (content : Text)
deriving DecidableEq, Repr

/-- Every opening tag has its closing tag. -/
inductive Balanced : List Piece → Prop
  | nil : Balanced []
  | text (content : Text) : Balanced [.text content]
  | element {tag : Text} {inner : List Piece} :
      Balanced inner → Balanced (.opening tag :: inner ++ [.closing tag])
  | append {first rest : List Piece} :
      Balanced first → Balanced rest → Balanced (first ++ rest)

/-! ## The libraries and the resources -/

/-- What the parser makes of a text. -/
inductive Parsed where
  | feedFails
  /-- The document is not set. -/
  | doneFails
  | doc (root : AprXmlElem)

def hrefsOpen : Text := "<D:hrefs xmlns:D=\"DAV:\">".toList
def hrefsClose : Text := "</D:hrefs>".toList

/-- The text that a value is parsed in. -/
def hrefsText (propValue : Text) : Text :=
  hrefsOpen ++ propValue ++ hrefsClose

def hrefOpen : Text := "<D:href>".toList
def hrefClose : Text := "</D:href>".toList

/-- The text of an href that needs no quoting. -/
def hrefText (uri : Text) : Text :=
  hrefOpen ++ uri ++ hrefClose

def href : Text := "href".toList

/-- Letters, digits and slashes. -/
def IsPlain (uri : Text) : Prop :=
  ∀ char ∈ uri, char.isAlphanum = true ∨ char = '/'

/-- The XML parser of the Apache runtime, and `dav_xml_get_cdata`. -/
structure Libraries where
  parse : Text → Parsed
  davXmlGetCdata : AprXmlElem → Text
  /-- The value of a property that is one href. -/
  parse_href : ∀ uri, IsPlain uri → ∃ root,
    parse (hrefsText (hrefText uri)) = .doc root ∧
      (davFindChild root href).map davXmlGetCdata = [uri]

/-- The live properties of a resource. -/
structure Props where
  lockdiscovery : Option Text
  supportedlock : Option Text
  lprHash : List (Text × Text)
  vprHash : List (Text × Text)

/-- The fields of a `dav_repos_resource` that are read. -/
structure DbResource where
  uri : Text
  props : Props

/-- `sabridge_get_property`, for the URI of a resource. -/
abbrev Resources := Text → Except DavError Props

def lockdiscovery : Text := "lockdiscovery".toList
def supportedlock : Text := "supportedlock".toList

/-- `dav_repos_get_prop_value`. -/
def davReposGetPropValue (dbR : DbResource) (ns propname : Text) :
    Option Text :=
  if ns = davNs then
    if propname = lockdiscovery then dbR.props.lockdiscovery
    else if propname = supportedlock then dbR.props.supportedlock
    else
      match dbR.props.lprHash.lookup propname with
      | some propValue => some propValue
      | none => dbR.props.vprHash.lookup propname
  else none

/-! ## The recursion -/

/-- Why a run has not returned a document. -/
inductive Stop where
  | err (err : DavError)
  /-- A document is read that is not set. -/
  | undefined
  /-- More calls are inside one another than the run may make. -/
  | tooDeep
deriving DecidableEq, Repr

/-- The pieces that a run sends when it returns without error. -/
abbrev Run := Except Stop (List Piece)

/-- The text that is sent for a value, or the elements that are followed. -/
def readValue (libs : Libraries) (dbR : DbResource) (nsName propName : Text) :
    Except Stop (Text ⊕ List AprXmlElem) :=
  match davReposGetPropValue dbR nsName propName with
  | none => .ok (.inl [])
  | some propValue =>
      match libs.parse (hrefsText propValue) with
      | .feedFails => .ok (.inl propValue)
      | .doneFails => .error .undefined
      | .doc root =>
          match davFindChild root href with
          | [] => .ok (.inl propValue)
          | hrefElem :: next => .ok (.inr (hrefElem :: next))

/-- One pass of the loop over the hrefs. -/
def hrefStep (libs : Libraries) (resources : Resources)
    (call : DbResource → AprXmlElem → Run) (children hrefElem : AprXmlElem) :
    Run :=
  let uri := libs.davXmlGetCdata hrefElem
  match resources uri with
  | .error err => .error (.err err)
  | .ok props => call { uri := uri, props := props } children

def nameAttr : Text := "name".toList
def namespaceAttr : Text := "namespace".toList

/-- The `name` of an element. -/
def propName (children : AprXmlElem) : Option Text :=
  davFindAttr children nameAttr

/-- The `namespace` of an element, `DAV:` when it has none. -/
def nsName (children : AprXmlElem) : Text :=
  (davFindAttr children namespaceAttr).getD davNs

def prop : Text := "prop".toList

/-- What stands between the tags of a property. -/
def valueStep (libs : Libraries) (resources : Resources)
    (call : DbResource → AprXmlElem → Run) (dbR : DbResource)
    (children : AprXmlElem) (name : Text) : Run :=
  match readValue libs dbR (nsName children) name with
  | .error stop => .error stop
  | .ok (.inl text) => .ok [.text text]
  | .ok (.inr hrefElems) =>
      Loop.collect (hrefStep libs resources call children) hrefElems

/-- One pass of the loop over the elements. -/
def propStep (libs : Libraries) (resources : Resources)
    (call : DbResource → AprXmlElem → Run) (dbR : DbResource)
    (children : AprXmlElem) : Run :=
  match propName children with
  | none =>
      .error (.err ⟨400, "property element has no name attribute"⟩)
  | some name =>
      (valueStep libs resources call dbR children name).map fun content =>
        .opening prop :: (.opening name :: content ++ [.closing name]) ++
          [.closing prop]

def property : Text := "property".toList
def response : Text := "response".toList
def propstat : Text := "propstat".toList

/-- The property elements, and the siblings behind the first of them. -/
def taken (elem : AprXmlElem) : List AprXmlElem :=
  davFindChild elem property

/--
`dav_repos_expand_property_recurse`, with so many calls inside one another,
the first one included.
-/
def recurse (libs : Libraries) (resources : Resources) :
    Nat → DbResource → AprXmlElem → Run
  | 0, _, _ => .error .tooDeep
  | levels + 1, dbR, elem =>
      (Loop.collect
        (propStep libs resources (recurse libs resources levels) dbR)
        (taken elem)).map fun props =>
          .opening response ::
            ((.opening href :: [.text dbR.uri] ++ [.closing href]) ++
              (.opening propstat ::
                (props ++ [.text "<D:status>HTTP/1.1 200 OK</D:status>".toList])
                ++ [.closing propstat])) ++
            [.closing response]

/-! ## What is sent is balanced -/

variable {libs : Libraries} {resources : Resources} {levels : Nat}
  {call : DbResource → AprXmlElem → Run} {dbR next : DbResource}
  {root elem child : AprXmlElem} {pieces : List Piece} {name : Text}
  {names rest : List Text} {stop : Stop}

theorem balanced_map
    {run : Run} {wrap : List Piece → List Piece}
    (wraps : ∀ inner, Balanced inner → Balanced (wrap inner))
    (balanced : ∀ inner, run = .ok inner → Balanced inner)
    (done : run.map wrap = .ok pieces) :
    Balanced pieces := by
  cases run with
  | error stop => cases done
  | ok inner =>
      rcases Except.ok.inj done with rfl
      exact wraps inner (balanced inner rfl)

theorem balanced_collect
    {step : AprXmlElem → Run} {items : List AprXmlElem}
    (each : ∀ item ∈ items, ∀ first, step item = .ok first → Balanced first)
    (done : Loop.collect step items = .ok pieces) :
    Balanced pieces :=
  Loop.collect_induct Balanced.nil (fun _ _ => Balanced.append) each done

theorem balanced_propStep
    (calls : ∀ dbR elem inner, call dbR elem = .ok inner → Balanced inner)
    (done : propStep libs resources call dbR child = .ok pieces) :
    Balanced pieces := by
  rw [propStep] at done
  cases named : propName child with
  | none =>
      rw [named] at done
      cases done
  | some name =>
      rw [named] at done
      apply balanced_map _ _ done
      · exact fun inner balanced => (balanced.element).element
      · intro inner sent
        rw [valueStep] at sent
        split at sent
        case h_1 => cases sent
        case h_2 text _ =>
          rcases Except.ok.inj sent with rfl
          exact Balanced.text text
        case h_3 hrefElems _ =>
          apply balanced_collect _ sent
          intro hrefElem _ first followed
          rw [hrefStep] at followed
          split at followed
          · cases followed
          · exact calls _ _ _ followed

/-- The tags of a run that returns without error are balanced. -/
theorem balanced_recurse
    (done : recurse libs resources levels dbR elem = .ok pieces) :
    Balanced pieces := by
  induction levels generalizing dbR elem pieces with
  | zero => cases done
  | succ levels induction =>
      rw [recurse] at done
      apply balanced_map _ _ done
      · intro props balanced
        exact (((Balanced.text dbR.uri).element).append
          ((balanced.append (Balanced.text _)).element)).element
      · intro props sent
        apply balanced_collect _ sent
        intro child _ first made
        exact balanced_propStep (fun _ _ _ => induction) made

/-! ## What a request lets the recursion follow -/

/-- The element has a name. -/
def HasName (child : AprXmlElem) : Prop :=
  (propName child).isSome

/-- The element asks for the property of that name in `DAV:`. -/
def Asks (child : AprXmlElem) (name : Text) : Prop :=
  propName child = some name ∧ nsName child = davNs

/--
A call for the element returns without error when only the properties with
these names refer to other resources, each name to one that has the next.
-/
def Completes : AprXmlElem → List Text → Prop
  | elem, [] => ∀ child ∈ taken elem, HasName child
  | elem, name :: rest =>
      (∀ child ∈ taken elem, HasName child) ∧
        ∀ child ∈ taken elem, Asks child name → Completes child rest

/--
The names lead the recursion down, past the elements with the same name that
are taken before.
-/
def Follows : AprXmlElem → List Text → Prop
  | _, [] => True
  | elem, name :: rest =>
      ∃ before child behind, taken elem = before ++ child :: behind ∧
        (∀ other ∈ before, HasName other ∧
          (Asks other name → Completes other rest)) ∧
        Asks child name ∧ Follows child rest

/-- The property of the name has an href of the other resource. -/
def Leads (libs : Libraries) (resources : Resources) (dbR : DbResource)
    (name : Text) (next : DbResource) : Prop :=
  ∃ hrefElems, readValue libs dbR davNs name = .ok (.inr hrefElems) ∧
    ∃ hrefElem ∈ hrefElems, libs.davXmlGetCdata hrefElem = next.uri ∧
      resources next.uri = .ok next.props

/-- The names lead from resource to resource. -/
def Linked (libs : Libraries) (resources : Resources) :
    DbResource → List Text → Prop
  | _, [] => True
  | dbR, name :: rest =>
      ∃ next, Leads libs resources dbR name next ∧ Linked libs resources next rest

theorem Follows.cons
    {before behind : List AprXmlElem}
    (split : taken elem = before ++ child :: behind)
    (passes : ∀ other ∈ before, HasName other ∧
      (Asks other name → Completes other rest))
    (asks : Asks child name)
    (follows : Follows child rest) :
    Follows elem (name :: rest) :=
  ⟨before, child, behind, split, passes, asks, follows⟩

/-- The names that lead down are no more than the elements that are nested. -/
theorem Follows.length_le (follows : Follows elem names) :
    names.length ≤ nesting (fun _ => true) elem := by
  induction names generalizing elem with
  | nil => exact Nat.zero_le _
  | cons name rest induction =>
      rcases follows with ⟨before, child, behind, split, -, -, below⟩
      have member : child ∈ taken elem := by
        rw [split]
        exact List.mem_append_right _ List.mem_cons_self
      have step := nesting_of_mem_children (fun _ => true)
        (mem_children_of_mem_davFindChild member)
      rw [if_pos rfl] at step
      rw [List.length_cons, Nat.add_comm]
      exact (Nat.add_le_add_left (induction below) 1).trans step

/-! ## What a run shows about the request -/

/-- Only properties in `DAV:` have hrefs. -/
theorem readValue_of_ne
    {ns : Text}
    (ne : ns ≠ davNs) :
    readValue libs dbR ns name = .ok (.inl []) := by
  rw [readValue, davReposGetPropValue, if_neg ne]

theorem readValue_ne_tooDeep
    (ns : Text) :
    readValue libs dbR ns name ≠ .error .tooDeep := by
  rw [readValue]
  split
  case h_1 => exact nofun
  case h_2 =>
    split
    case h_1 => exact nofun
    case h_2 => exact nofun
    case h_3 =>
      split
      · exact nofun
      · exact nofun

theorem hrefStep_eq
    {hrefElem : AprXmlElem}
    (cdata : libs.davXmlGetCdata hrefElem = next.uri)
    (found : resources next.uri = .ok next.props) :
    hrefStep libs resources call child hrefElem = call next child := by
  rw [hrefStep, cdata, found]

/-- A pass that is made has a name, and has followed all of its hrefs. -/
theorem propStep_ok
    (done : propStep libs resources call dbR child = .ok pieces) :
    HasName child ∧ ∀ name next, Asks child name →
      Leads libs resources dbR name next →
        ∃ inner, call next child = .ok inner := by
  rw [propStep] at done
  cases named : propName child with
  | none =>
      rw [named] at done
      cases done
  | some own =>
      rw [named] at done
      refine ⟨Option.isSome_iff_exists.mpr ⟨own, named⟩, ?_⟩
      rintro name next ⟨asked, ns⟩
        ⟨hrefElems, read, hrefElem, member, cdata, found⟩
      rcases Option.some.inj (named.symm.trans asked) with rfl
      cases sent : valueStep libs resources call dbR child own with
      | error stop =>
          simp only [sent] at done
          cases done
      | ok content =>
          rw [valueStep, ns, read] at sent
          rcases Loop.collect_made sent hrefElem member with
            ⟨inner, followed⟩
          rw [hrefStep_eq cdata found] at followed
          exact ⟨inner, followed⟩

/-- A pass that goes too deep follows one of its hrefs too deep. -/
theorem propStep_tooDeep
    (failed : propStep libs resources call dbR child = .error .tooDeep) :
    ∃ name next, Asks child name ∧ Leads libs resources dbR name next ∧
      call next child = .error .tooDeep := by
  rw [propStep] at failed
  cases named : propName child with
  | none =>
      rw [named] at failed
      cases failed
  | some own =>
      rw [named] at failed
      cases sent : valueStep libs resources call dbR child own with
      | ok content =>
          simp only [sent] at failed
          cases failed
      | error stop =>
          simp only [sent] at failed
          rcases Except.error.inj failed with rfl
          by_cases ns : nsName child = davNs
          case neg =>
            rw [valueStep, readValue_of_ne ns] at sent
            cases sent
          case pos =>
            rw [valueStep, ns] at sent
            cases read : readValue libs dbR davNs own with
            | error other =>
                rw [read] at sent
                rcases Except.error.inj sent with rfl
                exact (readValue_ne_tooDeep _ read).elim
            | ok value =>
                rw [read] at sent
                cases value with
                | inl text => cases sent
                | inr hrefElems =>
                    rcases Loop.collect_error sent with
                      ⟨before, hrefElem, behind, rfl, -, deep⟩
                    rw [hrefStep] at deep
                    split at deep
                    case h_1 => cases deep
                    case h_2 props found =>
                      exact ⟨own, _, ⟨named, ns⟩, ⟨_, read, hrefElem,
                        List.mem_append_right _ List.mem_cons_self, rfl,
                        found⟩, deep⟩

theorem map_eq_error
    {run : Run} {wrap : List Piece → List Piece}
    (failed : run.map wrap = .error stop) :
    run = .error stop := by
  cases run with
  | error other =>
      rcases Except.error.inj failed with rfl
      rfl
  | ok inner => cases failed

theorem map_eq_ok
    {run : Run} {wrap : List Piece → List Piece}
    (done : run.map wrap = .ok pieces) :
    ∃ inner, run = .ok inner := by
  cases run with
  | error other => cases done
  | ok inner => exact ⟨inner, rfl⟩

/-- A run that returns without error lets every chain of names complete. -/
theorem completes_of_recurse
    (done : recurse libs resources levels dbR elem = .ok pieces)
    (linked : Linked libs resources dbR names) :
    Completes elem names := by
  induction names generalizing levels dbR elem pieces with
  | nil =>
      cases levels with
      | zero => cases done
      | succ levels =>
          rcases map_eq_ok done with ⟨props, sent⟩
          intro child member
          rcases Loop.collect_made sent child member with ⟨first, made⟩
          exact (propStep_ok made).1
  | cons name rest induction =>
      cases levels with
      | zero => cases done
      | succ levels =>
          rcases linked with ⟨next, leads, linked⟩
          rcases map_eq_ok done with ⟨props, sent⟩
          have all := Loop.collect_made sent
          constructor
          · intro child member
            rcases all child member with ⟨first, made⟩
            exact (propStep_ok made).1
          · intro child member asks
            rcases all child member with ⟨first, made⟩
            rcases (propStep_ok made).2 name next asks leads with
              ⟨inner, returned⟩
            exact induction returned linked

/-- A run that goes too deep follows as many names. -/
theorem follows_of_recurse
    (failed : recurse libs resources levels dbR elem = .error .tooDeep) :
    ∃ names, names.length = levels ∧ Linked libs resources dbR names ∧
      Follows elem names := by
  induction levels generalizing dbR elem with
  | zero => exact ⟨[], rfl, trivial, trivial⟩
  | succ levels induction =>
      rcases Loop.collect_error (map_eq_error failed) with
        ⟨before, child, behind, split, passed, deep⟩
      rcases propStep_tooDeep deep with ⟨name, next, asks, leads, deeper⟩
      rcases induction deeper with ⟨rest, length, linked, follows⟩
      refine ⟨name :: rest, congrArg Nat.succ length, ⟨next, leads, linked⟩,
        Follows.cons split ?_ asks follows⟩
      intro other member
      rcases passed other member with ⟨first, made⟩
      refine ⟨(propStep_ok made).1, ?_⟩
      intro asksToo
      rcases (propStep_ok made).2 name next asksToo leads with
        ⟨inner, returned⟩
      exact completes_of_recurse returned linked

/-- The recursion ends for every request, whatever the resources refer to. -/
theorem recurse_ends
    (enough : nesting (fun _ => true) elem < levels) :
    recurse libs resources levels dbR elem ≠ .error .tooDeep := by
  intro failed
  rcases follows_of_recurse failed with ⟨names, length, -, follows⟩
  rw [← length] at enough
  exact enough.not_ge follows.length_le

/-! ## Resources in a line -/

def lineUri (index : Nat) : Text :=
  '/' :: List.replicate index '0'

/-- One property, which refers to the next resource. -/
def lineProps : List Text → Props
  | [] =>
      { lockdiscovery := none
        supportedlock := none
        lprHash := []
        vprHash := [] }
  | name :: rest =>
      let value := hrefText (lineUri rest.length)
      { lockdiscovery := if name = lockdiscovery then some value else none
        supportedlock := if name = supportedlock then some value else none
        lprHash := [(name, value)]
        vprHash := [] }

/-- The resource from which the names lead on. -/
def lineResource (names : List Text) : DbResource where
  uri := lineUri names.length
  props := lineProps names

/-- The resources from which some last ones of the names lead on. -/
def lineResources (names : List Text) : Resources := fun uri =>
  .ok (lineProps (names.drop (names.length - (uri.length - 1))))

theorem isPlain_lineUri (index : Nat) : IsPlain (lineUri index) := by
  intro char member
  rcases List.mem_cons.mp member with rfl | zero
  · exact Or.inr rfl
  · rw [List.eq_of_mem_replicate zero]
    exact Or.inl rfl

theorem lineResources_eq (suffix : rest <:+ names) :
    lineResources names (lineResource rest).uri =
      .ok (lineResource rest).props := by
  have length : (lineUri rest.length).length - 1 = rest.length := by
    rw [lineUri, List.length_cons, List.length_replicate, Nat.add_sub_cancel]
  rw [lineResources, lineResource, length,
    ← List.suffix_iff_eq_drop.mp suffix]

theorem davReposGetPropValue_line (other : Text) :
    davReposGetPropValue (lineResource (name :: rest)) davNs other =
      if other = name then some (hrefText (lineUri rest.length)) else none := by
  rw [davReposGetPropValue, if_pos rfl]
  by_cases same : other = name
  · rw [same, if_pos rfl]
    split
    case isTrue own => exact if_pos own
    case isFalse =>
      split
      case isTrue own => exact if_pos own
      case isFalse => simp [lineResource, lineProps]
  · rw [if_neg same]
    split
    case isTrue own =>
      exact if_neg fun named => same (own.trans named.symm)
    case isFalse =>
      split
      case isTrue own =>
        exact if_neg fun named => same (own.trans named.symm)
      case isFalse => simp [lineResource, lineProps, same]

/-- The property of the name is one href, and no other has a value. -/
theorem readValue_line (libs : Libraries) (name : Text) (rest : List Text) :
    ∃ hrefElem, libs.davXmlGetCdata hrefElem = (lineResource rest).uri ∧
      readValue libs (lineResource (name :: rest)) davNs name =
        .ok (.inr [hrefElem]) := by
  rcases libs.parse_href _ (isPlain_lineUri rest.length) with
    ⟨root, parsed, hrefs⟩
  rcases List.map_eq_singleton_iff.mp hrefs with ⟨hrefElem, found, cdata⟩
  refine ⟨hrefElem, cdata, ?_⟩
  rw [readValue, davReposGetPropValue_line, if_pos rfl]
  simp only [parsed, found]

theorem readValue_line_other
    {ns other : Text}
    (notAsked : ∀ tail, names = other :: tail → ns ≠ davNs) :
    readValue libs (lineResource names) ns other = .ok (.inl []) := by
  by_cases ns' : ns = davNs
  case neg => exact readValue_of_ne ns'
  case pos =>
    have none : davReposGetPropValue (lineResource names) ns other = none := by
      cases names with
      | nil =>
          rw [davReposGetPropValue, if_pos ns']
          split
          · rfl
          · split
            · rfl
            · rfl
      | cons name rest =>
          rw [ns', davReposGetPropValue_line, if_neg]
          rintro rfl
          exact notAsked rest rfl ns'
    rw [readValue, none]

section Line

variable {all : List Text}

/-- What is not asked for has no href in the line. -/
theorem propStep_line_other
    (hasName : HasName child)
    (notAsked : ∀ name tail, names = name :: tail → ¬ Asks child name) :
    ∃ pieces, propStep libs (lineResources all) call (lineResource names)
      child = .ok pieces := by
  rcases Option.isSome_iff_exists.mp hasName with ⟨own, named⟩
  have read : readValue libs (lineResource names) (nsName child) own =
      .ok (.inl []) := by
    apply readValue_line_other
    intro tail cons ns
    exact notAsked own tail cons ⟨named, ns⟩
  rw [propStep, named]
  simp only [valueStep, read]
  exact ⟨_, rfl⟩

/-- What is asked for is followed to the next resource of the line. -/
theorem valueStep_line
    (suffix : rest <:+ all)
    (asks : Asks child name) :
    valueStep libs (lineResources all) call (lineResource (name :: rest))
        child name =
      (call (lineResource rest) child).map fun inner => inner ++ [] := by
  rcases readValue_line libs name rest with ⟨hrefElem, cdata, read⟩
  rw [valueStep, asks.2, read]
  show Loop.collect _ [hrefElem] = _
  rw [Loop.collect, hrefStep_eq cdata (lineResources_eq suffix)]
  rfl

theorem propStep_line_ok
    {inner : List Piece}
    (suffix : rest <:+ all)
    (asks : Asks child name)
    (returned : call (lineResource rest) child = .ok inner) :
    ∃ pieces, propStep libs (lineResources all) call
      (lineResource (name :: rest)) child = .ok pieces := by
  rw [propStep, asks.1]
  simp only [valueStep_line suffix asks, returned]
  exact ⟨_, rfl⟩

theorem propStep_line_error
    (suffix : rest <:+ all)
    (asks : Asks child name)
    (failed : call (lineResource rest) child = .error stop) :
    propStep libs (lineResources all) call (lineResource (name :: rest))
      child = .error stop := by
  rw [propStep, asks.1]
  simp only [valueStep_line suffix asks, failed]
  rfl

/-- A sibling on the way returns without error or goes too deep. -/
theorem propStep_line_cases
    (suffix : names <:+ all)
    (hasName : HasName child)
    (calls : ∀ name rest, names = name :: rest → Asks child name →
      (∃ inner, call (lineResource rest) child = .ok inner) ∨
        call (lineResource rest) child = .error .tooDeep) :
    (∃ pieces, propStep libs (lineResources all) call (lineResource names)
      child = .ok pieces) ∨
      propStep libs (lineResources all) call (lineResource names) child =
        .error .tooDeep := by
  by_cases asked : ∃ name rest, names = name :: rest ∧ Asks child name
  · rcases asked with ⟨name, rest, rfl, asks⟩
    have shorter := (List.suffix_cons name rest).trans suffix
    rcases calls name rest rfl asks with ⟨inner, returned⟩ | deep
    · exact Or.inl (propStep_line_ok shorter asks returned)
    · exact Or.inr (propStep_line_error shorter asks deep)
  · apply Or.inl
    apply propStep_line_other hasName
    intro name rest cons asks
    exact asked ⟨name, rest, cons, asks⟩

theorem Completes.hasName
    (completes : Completes elem names)
    (member : child ∈ taken elem) :
    HasName child := by
  cases names with
  | nil => exact completes child member
  | cons name rest => exact completes.1 child member

/-- On the line of the names, an element that completes goes too deep only. -/
theorem recurse_line_cases
    (suffix : names <:+ all)
    (completes : Completes elem names) :
    (∃ pieces, recurse libs (lineResources all) levels (lineResource names)
      elem = .ok pieces) ∨
      recurse libs (lineResources all) levels (lineResource names) elem =
        .error .tooDeep := by
  induction levels generalizing names elem with
  | zero => exact Or.inr rfl
  | succ levels induction =>
      have each : ∀ child ∈ taken elem,
          (∃ pieces, propStep libs (lineResources all)
            (recurse libs (lineResources all) levels) (lineResource names)
              child = .ok pieces) ∨
            propStep libs (lineResources all)
              (recurse libs (lineResources all) levels) (lineResource names)
                child = .error .tooDeep := by
        intro child member
        apply propStep_line_cases suffix (completes.hasName member)
        rintro name rest rfl asks
        exact induction ((List.suffix_cons name rest).trans suffix)
          (completes.2 child member asks)
      rw [recurse]
      rcases Loop.collect_cases each with ⟨pieces, made⟩ | deep
      · rw [made]
        exact Or.inl ⟨_, rfl⟩
      · rw [deep]
        exact Or.inr rfl

/-- On the line of the names, names that lead down go too deep. -/
theorem recurse_line_tooDeep
    (suffix : names <:+ all)
    (follows : Follows elem names)
    (long : levels ≤ names.length) :
    recurse libs (lineResources all) levels (lineResource names) elem =
      .error .tooDeep := by
  induction levels generalizing names elem with
  | zero => rfl
  | succ levels induction =>
      cases names with
      | nil => cases long
      | cons name rest =>
          rcases follows with
            ⟨before, child, behind, split, passes, asks, follows⟩
          have shorter := (List.suffix_cons name rest).trans suffix
          have deep : propStep libs (lineResources all)
              (recurse libs (lineResources all) levels)
              (lineResource (name :: rest)) child = .error .tooDeep :=
            propStep_line_error shorter asks
              (induction shorter follows (Nat.le_of_succ_le_succ long))
          rw [recurse, split, Loop.collect_append_error _ deep]
          · rfl
          · intro other member
            apply propStep_line_cases suffix (passes other member).1
            rintro own tail cons asksToo
            rcases List.cons.inj cons with ⟨rfl, rfl⟩
            exact recurse_line_cases shorter
              ((passes other member).2 asksToo)

end Line

/-! ## The report -/

/--
The run ends with no more calls inside the first one than property elements
are nested, and what it sends is balanced when it returns without error.
-/
def ExpandsWell (libs : Libraries) (resources : Resources) (dbR : DbResource)
    (root : AprXmlElem) : Prop :=
  recurse libs resources (nesting (isNamed property) root + 1) dbR root ≠
      .error .tooDeep ∧
    ∀ pieces, recurse libs resources (nesting (isNamed property) root + 1) dbR
      root = .ok pieces → Balanced pieces

/-- No names lead deeper than property elements are nested. -/
def LeadsNoDeeper (root : AprXmlElem) : Prop :=
  ∀ names, Follows root names →
    names.length ≤ nesting (isNamed property) root

mutual

/-- All elements below are property elements, as the request is declared. -/
def IsDeclared : AprXmlElem → Prop
  | .mk _ _ _ _ children => AreDeclared children

def AreDeclared : List AprXmlElem → Prop
  | [] => True
  | child :: rest =>
      (isNamed property child = true ∧ IsDeclared child) ∧ AreDeclared rest

end

theorem AreDeclared.of_mem
    {children : List AprXmlElem}
    (declared : AreDeclared children)
    (member : child ∈ children) :
    isNamed property child = true ∧ IsDeclared child := by
  induction children with
  | nil => cases member
  | cons first rest induction =>
      rw [AreDeclared] at declared
      rcases List.mem_cons.mp member with rfl | behind
      · exact declared.1
      · exact induction declared.2 behind

/-- In a request as it is declared no names lead deeper. -/
theorem IsDeclared.leadsNoDeeper (declared : IsDeclared root) :
    LeadsNoDeeper root := by
  intro names follows
  induction names generalizing root with
  | nil => exact Nat.zero_le _
  | cons name rest induction =>
      rcases follows with ⟨before, child, behind, split, -, -, below⟩
      have member : child ∈ root.children := by
        apply mem_children_of_mem_davFindChild
        rw [← taken, split]
        exact List.mem_append_right _ List.mem_cons_self
      have here : isNamed property child = true ∧ IsDeclared child := by
        cases root with
        | mk ns elemName attr firstCdata children =>
            rw [IsDeclared] at declared
            exact declared.of_mem member
      have step := nesting_of_mem_children (isNamed property) member
      rw [if_pos here.1] at step
      rw [List.length_cons, Nat.add_comm]
      exact (Nat.add_le_add_left (induction here.2 below) 1).trans step

/--
The report is right whatever the resources are iff no names lead deeper than
property elements are nested.
-/
theorem expandsWell_iff (libs : Libraries) (root : AprXmlElem) :
    (∀ resources dbR, ExpandsWell libs resources dbR root) ↔
      LeadsNoDeeper root := by
  constructor
  · intro well names follows
    by_contra deeper
    rw [not_le] at deeper
    exact (well (lineResources names) (lineResource names)).1
      (recurse_line_tooDeep List.suffix_rfl follows deeper)
  · intro noDeeper resources dbR
    constructor
    · intro failed
      rcases follows_of_recurse failed with ⟨names, length, -, follows⟩
      have short := noDeeper names follows
      rw [length] at short
      exact Nat.not_succ_le_self _ short
    · intro pieces done
      exact balanced_recurse done

/-! ## A request with another element -/

/-- What stands between the tags of one href. -/
def oneHref (text : Text) : Text :=
  (text.drop (hrefsOpen ++ hrefOpen).length).take
    (text.length - (hrefsOpen ++ hrefOpen).length -
      (hrefClose ++ hrefsClose).length)

theorem oneHref_hrefsText (uri : Text) :
    oneHref (hrefsText (hrefText uri)) = uri := by
  have shape : hrefsText (hrefText uri) =
      (hrefsOpen ++ hrefOpen) ++ (uri ++ (hrefClose ++ hrefsClose)) := by
    simp only [hrefsText, hrefText, List.append_assoc]
  have length : (hrefsText (hrefText uri)).length -
      (hrefsOpen ++ hrefOpen).length - (hrefClose ++ hrefsClose).length =
        uri.length := by
    rw [shape, List.length_append, Nat.add_sub_cancel_left, List.length_append,
      Nat.add_sub_cancel]
  rw [oneHref, length, shape, List.drop_left, List.take_left]

/-- A parser for texts with one href. -/
def oneHrefLibraries : Libraries where
  parse := fun text =>
    if text = hrefsText (hrefText (oneHref text)) then
      .doc (.mk davNs "hrefs".toList [] []
        [.mk davNs href [] [oneHref text] []])
    else .feedFails
  davXmlGetCdata := fun elem => elem.firstCdata.flatten
  parse_href := by
    intro uri _
    rw [oneHref_hrefsText, if_pos rfl]
    refine ⟨_, rfl, ?_⟩
    rw [davFindChild]
    show [[uri].flatten] = [uri]
    rw [List.flatten_singleton]

def namedElem (elemName name : Text) (children : List AprXmlElem) :
    AprXmlElem :=
  .mk davNs elemName [(nameAttr, name)] [] children

/-- An element with a property in it stands behind a property. -/
def mixedRoot : AprXmlElem :=
  .mk davNs "expand-property".toList [] []
    [namedElem property "displayname".toList [],
      namedElem "link".toList "version-history".toList
        [namedElem property "version-set".toList []]]

def mixedNames : List Text :=
  ["version-history".toList, "version-set".toList]

theorem follows_mixedRoot : Follows mixedRoot mixedNames := by
  have behind : ∀ other ∈ [namedElem property "displayname".toList []],
      HasName other ∧ (Asks other "version-history".toList →
        Completes other ["version-set".toList]) := by
    intro other member
    rw [List.mem_singleton.mp member]
    refine ⟨rfl, ?_⟩
    rintro ⟨asked, -⟩
    cases asked
  have inside : Follows (namedElem "link".toList "version-history".toList
      [namedElem property "version-set".toList []])
      ["version-set".toList] :=
    ⟨[], _, [], rfl, nofun, ⟨rfl, rfl⟩, trivial⟩
  exact Follows.cons rfl behind ⟨rfl, rfl⟩ inside

/-- Two calls are inside the first one, for one nested property. -/
theorem not_expandsWell :
    ¬ ExpandsWell oneHrefLibraries (lineResources mixedNames)
      (lineResource mixedNames) mixedRoot := by
  intro well
  exact well.1 (recurse_line_tooDeep List.suffix_rfl follows_mixedRoot
    (by decide))

end Limestone.ExpandProperty
