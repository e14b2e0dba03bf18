import Limestone.Schema
import Mathlib.Data.List.TakeWhile

/-!
# XML elements of the Apache runtime

An element is known to the server with its namespace, its attributes, the
character data before its first child, and its children.  A pointer to a child
is the list that begins with it, since the code follows the `next` pointers;
the null pointer is the empty list.  What goes along the elements is defined
here; what makes texts of them, or parses texts, is a parameter of the models.
-/

namespace Limestone.AprXml

/-- What a run dies of. -/
inductive Fault where
  | nullPointer
deriving DecidableEq, Repr

/-- `*pointer`. -/
def deref {Value : Type} : Option Value → Except Fault Value
  | none => .error .nullPointer
  | some value => .ok value

/-- `apr_xml_elem`; the character data is a chain of texts. -/
inductive AprXmlElem where
  | mk (ns name : Text) (attr : List (Text × Text)) (firstCdata : List Text)
      (children : List AprXmlElem)

namespace AprXmlElem

def ns : AprXmlElem → Text
  | mk ns _ _ _ _ => ns

def name : AprXmlElem → Text
  | mk _ name _ _ _ => name

def attr : AprXmlElem → List (Text × Text)
  | mk _ _ attr _ _ => attr

/-- `first_cdata`. -/
def firstCdata : AprXmlElem → List Text
  | mk _ _ _ firstCdata _ => firstCdata

/-- `first_child` and the elements behind it. -/
def children : AprXmlElem → List AprXmlElem
  | mk _ _ _ _ children => children

end AprXmlElem

/-- `APR_XML_NS_DAV_ID`. -/
def davNs : Text := "DAV:".toList

/-- The element has the name in the namespace `DAV:`. -/
def isNamed (name : Text) (elem : AprXmlElem) : Bool :=
  elem.ns == davNs && elem.name == name

/-- `dav_find_child`. -/
def davFindChild (elem : AprXmlElem) (name : Text) : List AprXmlElem :=
  elem.children.dropWhile fun child => !isNamed name child

/-- `dav_find_attr`. -/
def davFindAttr (elem : AprXmlElem) (attrName : Text) : Option Text :=
  elem.attr.lookup attrName

/-- `dav_repos_mk_href`, given `apr_xml_quote_string`. -/
def davReposMkHref (xmlQuoteString : Text → Text) (uri : Text) : Text :=
  "<D:href>".toList ++ xmlQuoteString uri ++ "</D:href>".toList

theorem davFindChild_eq_nil {elem : AprXmlElem} {name : Text} :
    davFindChild elem name = [] ↔
      ∀ child ∈ elem.children, isNamed name child = false := by
  rw [davFindChild, List.dropWhile_eq_nil_iff]
  simp only [Bool.not_eq_true']

/-! ## Nesting -/

mutual

/-- How many of the elements that count are nested below an element. -/
def nesting (counts : AprXmlElem → Bool) : AprXmlElem → Nat
  | .mk _ _ _ _ children => nestingAll counts children

/-- The same with the elements of a list themselves. -/
def nestingAll (counts : AprXmlElem → Bool) : List AprXmlElem → Nat
  | [] => 0
  | child :: rest =>
      max ((if counts child then 1 else 0) + nesting counts child)
        (nestingAll counts rest)

end

variable {counts : AprXmlElem → Bool} {elem child : AprXmlElem}

theorem nestingAll_of_mem
    {children : List AprXmlElem}
    (member : child ∈ children) :
    (if counts child then 1 else 0) + nesting counts child ≤
      nestingAll counts children := by
  induction children with
  | nil => cases member
  | cons first rest induction =>
      rw [nestingAll]
      rcases List.mem_cons.mp member with rfl | behind
      · exact le_max_left _ _
      · exact (induction behind).trans (le_max_right _ _)

/-- The nesting below a child, and the child if it counts. -/
theorem nesting_of_mem_children
    (counts : AprXmlElem → Bool)
    (member : child ∈ elem.children) :
    (if counts child then 1 else 0) + nesting counts child ≤
      nesting counts elem := by
  cases elem with
  | mk ns name attr firstCdata children =>
      rw [nesting]
      exact nestingAll_of_mem member

theorem mem_children_of_mem_davFindChild
    {name : Text}
    (member : child ∈ davFindChild elem name) :
    child ∈ elem.children :=
  (List.dropWhile_sublist _).mem member

end Limestone.AprXml
