import Mathlib.Data.List.Basic
import Mathlib.Tactic.Common

/-!
# Elements of XML as texts

A text is scanned character by character into tags and character data, and the
tags are matched to a tree.  Names are resolved with the namespaces that are
declared where they stand.  An element without content can be written as one
tag or as two.

Comments, processing instructions, CDATA sections, numeric references, and
blanks around `=` and in end tags are left out: what is read is read as XML
says, but not all of XML is read.
-/

namespace Limestone.Library.Xml

/-! ## Characters -/

def isBlank (char : Char) : Bool :=
  char ∈ [' ', '\t', '\n', '\r']

/-- The characters of names, and more that end nothing. -/
def isNameChar (char : Char) : Bool :=
  !isBlank char && char ∉ ['<', '>', '&', '/', '=', '"', '\'']

/-- The text that is meant, if all references in it are known. -/
def unquote : List Char → Option (List Char)
  | [] => some []
  | '&' :: 'l' :: 't' :: ';' :: rest => (unquote rest).map ('<' :: ·)
  | '&' :: 'g' :: 't' :: ';' :: rest => (unquote rest).map ('>' :: ·)
  | '&' :: 'a' :: 'm' :: 'p' :: ';' :: rest => (unquote rest).map ('&' :: ·)
  | '&' :: 'q' :: 'u' :: 'o' :: 't' :: ';' :: rest =>
      (unquote rest).map ('"' :: ·)
  | '&' :: 'a' :: 'p' :: 'o' :: 's' :: ';' :: rest =>
      (unquote rest).map ('\'' :: ·)
  | char :: rest => if char = '&' then none else (unquote rest).map (char :: ·)

/-- A character as it is written in the value of an attribute. -/
def quoteChar (char : Char) : List Char :=
  if char = '<' then "&lt;".toList
  else if char = '>' then "&gt;".toList
  else if char = '&' then "&amp;".toList
  else if char = '"' then "&quot;".toList
  else [char]

def quote (text : List Char) : List Char :=
  text.flatMap quoteChar

/-- Line ends are read as line feeds. -/
def lineEnds : List Char → List Char
  | [] => []
  | '\r' :: '\n' :: rest => '\n' :: lineEnds rest
  | '\r' :: rest => '\n' :: lineEnds rest
  | char :: rest => char :: lineEnds rest

def readText (text : List Char) : Option (List Char) :=
  unquote (lineEnds text)

/-- In the value of an attribute blanks are spaces. -/
def readValue (text : List Char) : Option (List Char) :=
  unquote ((lineEnds text).map fun char => if isBlank char then ' ' else char)

/-! ## The scanner -/

/-- Names and values. -/
abbrev Attributes := List (List Char × List Char)

inductive Token where
  | opening (name : List Char) (attributes : Attributes)
  | closing (name : List Char)
  | text (content : List Char)
deriving DecidableEq, Repr

/-- What the scanner is in the middle of. -/
inductive Mode where
  | content (read : List Char)
  /-- After `<`. -/
  | markup
  | endName (name : List Char)
  | startName (name : List Char)
  | inTag (name : List Char) (attributes : Attributes) (spaced : Bool)
  /-- After a slash in a tag. -/
  | slash (name : List Char) (attributes : Attributes)
  | key (name : List Char) (attributes : Attributes) (key : List Char)
  | equals (name : List Char) (attributes : Attributes) (key : List Char)
  | value (name : List Char) (attributes : Attributes) (key : List Char)
      (mark : Char) (read : List Char)
deriving DecidableEq, Repr

structure Scan where
  tokens : List Token
  mode : Mode
deriving DecidableEq, Repr

/-- The end of a start tag, the attributes of which have different names. -/
def openTag (tokens : List Token) (name : List Char) (attributes : Attributes)
    (closed : Bool) : Option Scan :=
  if (attributes.map Prod.fst).Nodup then
    some ⟨tokens ++ .opening name attributes ::
      (if closed then [.closing name] else []), .content []⟩
  else none

/-- A character of a start tag that belongs to no name. -/
def tagStep (tokens : List Token) (name : List Char) (attributes : Attributes)
    (char : Char) : Option Scan :=
  if char = '>' then openTag tokens name attributes false
  else if char = '/' then some ⟨tokens, .slash name attributes⟩
  else if isBlank char then some ⟨tokens, .inTag name attributes true⟩
  else none

def step (scan : Scan) (char : Char) : Option Scan :=
  match scan.mode with
  | .content read =>
      if char = '<' then
        if read = [] then some ⟨scan.tokens, .markup⟩
        else (readText read).map fun content =>
          ⟨scan.tokens ++ [.text content], .markup⟩
      else some ⟨scan.tokens, .content (read ++ [char])⟩
  | .markup =>
      if char = '/' then some ⟨scan.tokens, .endName []⟩
      else if isNameChar char then some ⟨scan.tokens, .startName [char]⟩
      else none
  | .endName name =>
      if isNameChar char then some ⟨scan.tokens, .endName (name ++ [char])⟩
      else if char = '>' ∧ name ≠ [] then
        some ⟨scan.tokens ++ [.closing name], .content []⟩
      else none
  | .startName name =>
      if isNameChar char then some ⟨scan.tokens, .startName (name ++ [char])⟩
      else tagStep scan.tokens name [] char
  | .inTag name attributes spaced =>
      if isNameChar char then
        if spaced then some ⟨scan.tokens, .key name attributes [char]⟩
        else none
      else tagStep scan.tokens name attributes char
  | .slash name attributes =>
      if char = '>' then openTag scan.tokens name attributes true else none
  | .key name attributes key =>
      if isNameChar char then
        some ⟨scan.tokens, .key name attributes (key ++ [char])⟩
      else if char = '=' then some ⟨scan.tokens, .equals name attributes key⟩
      else none
  | .equals name attributes key =>
      if char = '"' ∨ char = '\'' then
        some ⟨scan.tokens, .value name attributes key char []⟩
      else none
  | .value name attributes key mark read =>
      if char = mark then
        (readValue read).map fun value =>
          ⟨scan.tokens, .inTag name (attributes ++ [(key, value)]) false⟩
      else if char = '<' then none
      else some ⟨scan.tokens, .value name attributes key mark (read ++ [char])⟩

def run (scan : Scan) (text : List Char) : Option Scan :=
  text.foldlM step scan

def start : Scan :=
  ⟨[], .content []⟩

/-- The tokens at the end of a text, which ends with a tag. -/
def finish (scan : Scan) : Option (List Token) :=
  if scan.mode = .content [] then some scan.tokens else none

/-! ## Trees -/

inductive Node where
  | element (name : List Char) (attributes : Attributes)
      (children : List Node)
  | text (content : List Char)

/-- An element that has not been closed. -/
structure Frame where
  name : List Char
  attributes : Attributes
  children : List Node

structure Build where
  frames : List Frame
  root : Option Node

def addNode (build : Build) (node : Node) : Option Build :=
  match build.frames, build.root with
  | [], none => some ⟨[], some node⟩
  | [], some _ => none
  | frame :: frames, root =>
      some ⟨{ frame with children := frame.children ++ [node] } :: frames,
        root⟩

def place (build : Build) : Token → Option Build
  | .opening name attributes =>
      some { build with frames := ⟨name, attributes, []⟩ :: build.frames }
  | .closing name =>
      match build.frames with
      | [] => none
      | frame :: frames =>
          if frame.name = name then
            addNode { build with frames := frames }
              (.element name frame.attributes frame.children)
          else none
  | .text content =>
      match build.frames with
      | [] => none
      | _ :: _ => addNode build (.text content)

/-- The element that the text consists of. -/
def read (text : List Char) : Option Node := do
  let scan ← run start text
  let tokens ← finish scan
  let build ← tokens.foldlM place ⟨[], none⟩
  match build.frames with
  | [] => build.root
  | _ :: _ => none

/-! ## Namespaces -/

/-- An element with what its names stand for. -/
inductive Element where
  | element (ns : Option (List Char)) (name : List Char)
      (lang : Option (List Char))
      (attributes : List (Option (List Char) × List Char × List Char))
      (children : List Element)
  | text (content : List Char)

/-- Prefix and local name. -/
def splitName (name : List Char) : List Char × List Char :=
  if ':' ∈ name then
    (name.takeWhile (· != ':'), (name.dropWhile (· != ':')).tail)
  else ([], name)

/-- The prefix that an attribute declares. -/
def declaredPrefix (key : List Char) : Option (List Char) :=
  if key = "xmlns".toList then some []
  else if (splitName key).1 = "xmlns".toList then some (splitName key).2
  else none

/-- Prefixes and what they stand for, the innermost first. -/
abbrev Scope := List (List Char × List Char)

def declarations (attributes : Attributes) : Scope :=
  attributes.filterMap fun (key, value) =>
    (declaredPrefix key).map fun declared => (declared, value)

/-- The namespace of a prefix; the empty one undeclares it. -/
def namespaceOf (scope : Scope) (declared : List Char) :
    Option (Option (List Char)) :=
  match (scope.lookup declared).getD [], declared with
  | [], [] => some none
  | [], _ :: _ => none
  | uri, _ => some (some uri)

/-- The key of the language of an element. -/
def langKey : List Char :=
  "xml:lang".toList

/-- An attribute that declares nothing; without prefix it has no namespace. -/
def resolveAttribute (scope : Scope) (key value : List Char) :
    Option (Option (List Char) × List Char × List Char) :=
  match (splitName key).1 with
  | [] => some (none, key, value)
  | declared =>
      if declared = "xml".toList then some (none, key, value)
      else (namespaceOf scope declared).map fun ns =>
        (ns, (splitName key).2, value)

def resolveAttributes (scope : Scope) (attributes : Attributes) :
    Option (List (Option (List Char) × List Char × List Char)) :=
  (attributes.filter fun pair =>
      (declaredPrefix pair.1).isNone && pair.1 != langKey).mapM
    fun pair => resolveAttribute scope pair.1 pair.2

mutual

/-- The names of a tree, in the scope and the language that it stands in. -/
def resolve (scope : Scope) (lang : Option (List Char)) :
    Node → Option Element
  | .text content => some (.text content)
  | .element name attributes children => do
      let scope := declarations attributes ++ scope
      let lang := (attributes.lookup langKey).or lang
      let ns ← namespaceOf scope (splitName name).1
      let resolved ← resolveAttributes scope attributes
      let children ← resolveAll scope lang children
      return .element ns (splitName name).2 lang resolved children

def resolveAll (scope : Scope) (lang : Option (List Char)) :
    List Node → Option (List Element)
  | [] => some []
  | node :: nodes => do
      let element ← resolve scope lang node
      let elements ← resolveAll scope lang nodes
      return element :: elements

end

/-- The element that a text of its own stands for. -/
def element (text : List Char) : Option Element :=
  (read text).bind (resolve [] none)

/-! ## Tags as they are written -/

/-- The name of an element or an attribute, with its prefix. -/
structure Name where
  text : List Char
  nonempty : text ≠ []
  chars : ∀ char ∈ text, isNameChar char = true

/-- A name and a value as it is written between double quotes. -/
structure Attribute where
  key : Name
  value : List Char
  plain : ∀ char ∈ value, char ≠ '<' ∧ char ≠ '>' ∧ char ≠ '"'

structure Tag where
  name : Name
  attributes : List Attribute

def Attribute.text (written : Attribute) : List Char :=
  ' ' :: (written.key.text ++ '=' :: '"' :: (written.value ++ ['"']))

/-- A start tag up to its end. -/
def Tag.opening (tag : Tag) : List Char :=
  '<' :: (tag.name.text ++ tag.attributes.flatMap Attribute.text)

def Tag.closing (tag : Tag) : List Char :=
  '<' :: '/' :: (tag.name.text ++ ['>'])

variable {tokens : List Token} {name : List Char} {attributes : Attributes}
  {mode : Mode} {scan : Scan} {text rest : List Char} {char : Char}

theorem isNameChar_ne
    {other : Char} (isName : isNameChar char = true)
    (ends : isNameChar other = false) : char ≠ other := by
  rintro rfl
  rw [isName] at ends
  cases ends

theorem Attribute.tagEnd_notMem (written : Attribute) :
    '>' ∉ written.text := by
  intro member
  rcases List.mem_cons.mp member with same | member
  · exact absurd same (by decide)
  rcases List.mem_append.mp member with inKey | member
  · exact isNameChar_ne (written.key.chars _ inKey) (by decide) rfl
  rcases List.mem_cons.mp member with same | member
  · exact absurd same (by decide)
  rcases List.mem_cons.mp member with same | member
  · exact absurd same (by decide)
  rcases List.mem_append.mp member with inValue | last
  · exact (written.plain _ inValue).2.1 rfl
  · exact absurd (List.mem_singleton.mp last) (by decide)

/-- The first `>` of a start tag is its end. -/
theorem Tag.tagEnd_notMem_opening (tag : Tag) : '>' ∉ tag.opening := by
  intro member
  rcases List.mem_cons.mp member with same | member
  · exact absurd same (by decide)
  rcases List.mem_append.mp member with inName | inAttributes
  · exact isNameChar_ne (tag.name.chars _ inName) (by decide) rfl
  · rcases List.mem_flatMap.mp inAttributes with ⟨written, -, inWritten⟩
    exact written.tagEnd_notMem inWritten

/-- A start tag ends with its name or with the quote of a value. -/
theorem Tag.getLast?_opening (tag : Tag) :
    tag.opening.getLast? ≠ some '/' := by
  rcases tag with ⟨⟨name, nonempty, chars⟩, written⟩
  rcases List.eq_nil_or_concat written with rfl | ⟨others, last, rfl⟩
  · show ('<' :: (name ++ [])).getLast? ≠ some '/'
    rw [List.append_nil, List.getLast?_cons_of_ne_nil nonempty]
    intro isLast
    have isName := chars '/' (List.mem_of_getLast? isLast)
    exact absurd isName (by decide)
  · have quoted : Tag.opening ⟨⟨name, nonempty, chars⟩, others.concat last⟩ =
        ('<' :: (name ++ (others.flatMap Attribute.text ++
          ' ' :: (last.key.text ++ '=' :: '"' :: last.value)))) ++ ['"'] := by
      simp [Tag.opening, Attribute.text]
    rw [quoted, List.getLast?_concat]
    decide

theorem run_append :
    run scan (text ++ rest) = (run scan text).bind (run · rest) :=
  List.foldlM_append

theorem run_cons :
    run scan (char :: rest) = (step scan char).bind (run · rest) :=
  List.foldlM_cons

/-- Characters that a mode collects. -/
theorem run_collect
    (collecting : List Char → Mode) (read : List Char)
    (collects : ∀ char ∈ text, ∀ read,
      step ⟨tokens, collecting read⟩ char =
        some ⟨tokens, collecting (read ++ [char])⟩) :
    run ⟨tokens, collecting read⟩ text =
      some ⟨tokens, collecting (read ++ text)⟩ := by
  induction text generalizing read with
  | nil => rw [List.append_nil]; rfl
  | cons char text induction =>
      rw [run_cons, collects char List.mem_cons_self, Option.bind_some,
        induction _ fun later member =>
          collects later (List.mem_cons_of_mem _ member),
        List.append_assoc, List.singleton_append]

/-- The scanner is in a start tag, behind the name or behind an attribute. -/
inductive IsInTag (name : List Char) : Attributes → Mode → Prop
  | named : IsInTag name [] (.startName name)
  | valued (attributes : Attributes) :
      IsInTag name attributes (.inTag name attributes false)

/-- There a character that belongs to no name ends the name or the attribute. -/
theorem step_isInTag
    (inTag : IsInTag name attributes mode)
    (ends : isNameChar char = false) :
    step ⟨tokens, mode⟩ char = tagStep tokens name attributes char := by
  cases inTag with
  | named =>
      simp only [step]
      rw [if_neg (by rw [ends]; exact Bool.false_ne_true)]
  | valued attributes =>
      simp only [step]
      rw [if_neg (by rw [ends]; exact Bool.false_ne_true)]

/-- An attribute that is scanned, unless its value cannot be read. -/
theorem run_attribute
    (inTag : IsInTag name attributes mode) (written : Attribute) :
    run ⟨tokens, mode⟩ written.text =
      (readValue written.value).map fun value =>
        ⟨tokens, .inTag name (attributes ++ [(written.key.text, value)])
          false⟩ := by
  rcases written with ⟨⟨key, nonempty, chars⟩, value, plain⟩
  rcases List.exists_cons_of_ne_nil nonempty with ⟨first, others, rfl⟩
  have firstName := chars first List.mem_cons_self
  have spaced : step ⟨tokens, mode⟩ ' ' =
      some ⟨tokens, .inTag name attributes true⟩ := by
    rw [step_isInTag inTag (by decide)]
    rfl
  have began : step ⟨tokens, .inTag name attributes true⟩ first =
      some ⟨tokens, .key name attributes [first]⟩ := by
    simp only [step]
    rw [if_pos firstName, if_pos trivial]
  have named := @run_collect tokens others (.key name attributes) [first] (by
    intro char member read
    simp only [step]
    rw [if_pos (chars char (List.mem_cons_of_mem _ member))])
  have collected := @run_collect tokens value
    (.value name attributes (first :: others) '"') [] (by
      intro char member read
      rcases plain char member with ⟨noTag, -, noQuote⟩
      simp only [step]
      rw [if_neg noQuote, if_neg noTag])
  have assigned : step ⟨tokens, .key name attributes (first :: others)⟩ '=' =
      some ⟨tokens, .equals name attributes (first :: others)⟩ := rfl
  have quoted : step ⟨tokens, .equals name attributes (first :: others)⟩ '"' =
      some ⟨tokens, .value name attributes (first :: others) '"' []⟩ := rfl
  have valued : run ⟨tokens, .value name attributes (first :: others) '"'
      value⟩ ['"'] = (readValue value).map fun value =>
        ⟨tokens, .inTag name (attributes ++ [(first :: others, value)])
          false⟩ := by
    rw [run_cons]
    simp only [step, if_true]
    cases readValue value with
    | none => rfl
    | some value => rfl
  show run _ (' ' :: (first :: others ++ _)) = _
  rw [run_cons, spaced, Option.bind_some, List.cons_append, run_cons, began,
    Option.bind_some, run_append, named, Option.bind_some]
  show run ⟨tokens, .key name attributes (first :: others)⟩ _ = _
  rw [run_cons, assigned, Option.bind_some, run_cons, quoted,
    Option.bind_some, run_append, collected, Option.bind_some]
  exact valued

/-- The attributes of a tag are scanned if their values can be read. -/
theorem run_attributes
    (written : List Attribute) (inTag : IsInTag name attributes mode) :
    run ⟨tokens, mode⟩ (written.flatMap Attribute.text) = none ∨
      ∃ read after, IsInTag name read after ∧
        run ⟨tokens, mode⟩ (written.flatMap Attribute.text) =
          some ⟨tokens, after⟩ := by
  induction written generalizing attributes mode with
  | nil => exact Or.inr ⟨attributes, mode, inTag, rfl⟩
  | cons first others induction =>
      rw [List.flatMap_cons, run_append, run_attribute inTag]
      cases readValue first.value with
      | none => exact Or.inl rfl
      | some value => exact induction (IsInTag.valued _)

/-- A start tag is scanned up to its end if its values can be read. -/
theorem run_opening (tag : Tag) :
    run start tag.opening = none ∨
      ∃ read after, IsInTag tag.name.text read after ∧
        run start tag.opening = some ⟨[], after⟩ := by
  rcases tag with ⟨⟨name, nonempty, chars⟩, written⟩
  rcases List.exists_cons_of_ne_nil nonempty with ⟨first, others, rfl⟩
  have firstName := chars first List.mem_cons_self
  have entered : step start '<' = some ⟨[], .markup⟩ := rfl
  have began : step ⟨[], .markup⟩ first = some ⟨[], .startName [first]⟩ := by
    have noSlash : first ≠ '/' := isNameChar_ne firstName (by decide)
    simp only [step]
    rw [if_neg noSlash, if_pos firstName]
  have named := @run_collect [] others .startName [first] (by
    intro char member read
    simp only [step]
    rw [if_pos (chars char (List.mem_cons_of_mem _ member))])
  have opened : run start
      (Tag.opening ⟨⟨first :: others, nonempty, chars⟩, written⟩) =
        run ⟨[], .startName (first :: others)⟩
          (written.flatMap Attribute.text) := by
    show run start ('<' :: (first :: others ++ _)) = _
    rw [run_cons, entered, Option.bind_some, List.cons_append, run_cons,
      began, Option.bind_some, run_append, named, Option.bind_some]
    rfl
  rw [opened]
  exact run_attributes written IsInTag.named

/-- An end tag is scanned. -/
theorem run_closing (tag : Tag) :
    run ⟨tokens, .content []⟩ tag.closing =
      some ⟨tokens ++ [.closing tag.name.text], .content []⟩ := by
  rcases tag with ⟨⟨name, nonempty, chars⟩, written⟩
  have named := @run_collect tokens name .endName [] (by
    intro char member read
    simp only [step]
    rw [if_pos (chars char member)])
  show run _ ('<' :: '/' :: (name ++ ['>'])) = _
  have entered : step ⟨tokens, .content []⟩ '<' = some ⟨tokens, .markup⟩ := rfl
  have slashed : step ⟨tokens, .markup⟩ '/' = some ⟨tokens, .endName []⟩ := rfl
  have ended : step ⟨tokens, .endName name⟩ '>' =
      some ⟨tokens ++ [.closing name], .content []⟩ := by
    simp only [step]
    rw [if_neg (by decide), if_pos ⟨trivial, nonempty⟩]
  rw [run_cons, entered, Option.bind_some, run_cons, slashed,
    Option.bind_some, run_append, named, Option.bind_some, List.nil_append,
    run_cons, ended]
  rfl

/-- An element without content is the same with one tag and with two. -/
theorem read_opening_closing (tag : Tag) :
    read (tag.opening ++ ['>'] ++ tag.closing) =
      read (tag.opening ++ ['/', '>']) := by
  have same : run start (tag.opening ++ ['>'] ++ tag.closing) =
      run start (tag.opening ++ ['/', '>']) := by
    rw [run_append, run_append, run_append]
    rcases run_opening tag with unread | ⟨attributes, mode, inTag, opened⟩
    · rw [unread]
      rfl
    · rw [opened, Option.bind_some, Option.bind_some, run_cons,
        step_isInTag inTag (by decide), run_cons,
        step_isInTag inTag (by decide)]
      have ended : tagStep [] tag.name.text attributes '>' =
          openTag [] tag.name.text attributes false := rfl
      have slashed : tagStep [] tag.name.text attributes '/' =
          some ⟨[], .slash tag.name.text attributes⟩ := rfl
      have closed : run ⟨[], .slash tag.name.text attributes⟩ ['>'] =
          openTag [] tag.name.text attributes true := by
        show (openTag [] tag.name.text attributes true).bind _ = _
        cases openTag [] tag.name.text attributes true with
        | none => rfl
        | some scan => rfl
      rw [ended, slashed, Option.bind_some, closed]
      unfold openTag
      split
      · show run ⟨[.opening tag.name.text attributes], .content []⟩
          tag.closing = _
        rw [run_closing]
        rfl
      · rfl
  unfold read
  rw [same]

end Limestone.Library.Xml
