import Limestone.Library.Xml
import Limestone.MediumUncheckout
import Limestone.PropertyNames
import Mathlib.Data.Bool.AllAny

/-!
# Dead properties as XML: `dav_repos_db_store`

An element is stored as its start tag and its content.  The start tag is cut
out of the text of the element, and an end tag is made from it when the
property is put out.  Properties are looked up by the keys of `pr_hash`.

What `apr_xml_to_text` gives of an element is taken as it comes.
-/

namespace Limestone.PropertyXml

open Library DbmsProperties PropertyNames
open BridgeMkcol (Stop)

/-! ## Elements -/

/-- The texts of an element whose values have been quoted. -/
structure QuotedElem where
  tag : Xml.Tag
  /-- `APR_XML_ELEM_IS_EMPTY`. -/
  isEmpty : Bool
  /-- The text with `APR_XML_X2T_INNER`. -/
  inner : Text
  noInner : isEmpty = true → inner = []

/-- The text with `APR_XML_X2T_FULL_NS_LANG`. -/
def QuotedElem.full (elem : QuotedElem) : Text :=
  if elem.isEmpty then elem.tag.opening ++ ['/', '>']
  else elem.tag.opening ++ ['>'] ++ (elem.inner ++ elem.tag.closing)

/-- The namespace and the name by which an element is stored. -/
def propName : Xml.Element → Text × Text
  | .element ns name _ _ _ => ((ns.map Xml.quote).getD [], name)
  | .text _ => ([], [])

/-! ## Storing -/

/-- The types of resources that the functions tell apart. -/
inductive DavResourceType where
  | version
  | history
  | other
deriving DecidableEq, Repr

/-- The statements of a store. -/
inductive StoreStatement where
  | selectNamespace
  | insertNamespace
  | property (statement : Statement)
deriving DecidableEq

/--
`dbms_get_ns_id`, with what `namespaces_id_seq` gives next.  The hashes of a
request hold what the table has.
-/
def dbmsGetNsId (fails : StoreStatement → Bool) (nextNsId : Id)
    (tables : PropertyTables) (ns : Text) :
    Except DavError (PropertyTables × Id) :=
  if fails .selectNamespace then .error (dbmsError "dbms_execute error")
  else
    match tables.namespaces.find? fun row => row.2 == ns with
    | some row => .ok (tables, row.1)
    | none =>
        match varchar 4096 ns with
        | none => .error (dbmsError "Could not insert namespace")
        | some column =>
            if fresh : nextNsId ∉ tables.namespaces.map Prod.fst then
              if fails .insertNamespace ∨ nextNsId ≤ 0 then
                .error (dbmsError "Could not insert namespace")
              else
                .ok (MediumUncheckout.insertNamespace tables nextNsId column
                  fresh, nextNsId)
            else .error (dbmsError "Could not insert namespace")

/-- The start tag of the text of an element, without a slash at its end. -/
def startTag (fullxml : Text) : Option Text :=
  if '>' ∈ fullxml then
    let before := fullxml.takeWhile (· != '>')
    let xmlinfosize :=
      if before.getLast? = some '/' then before.length - 1 else before.length
    some (fullxml.take xmlinfosize ++ ['>'])
  else none

/-- `dav_repos_db_store`. -/
def davReposDbStore (fails : StoreStatement → Bool) (nextNsId : Id)
    (type : DavResourceType) (tables : PropertyTables) (serialno : Id)
    (ns : Text) (name : ElementName) (elem : QuotedElem) :
    Except Stop PropertyTables :=
  if type = .version ∨ type = .history then
    .error (.davError ⟨httpConflict,
      "You can not set props for version resource."⟩)
  else
    match startTag elem.full with
    | none => .error .nullDereference
    | some xmlinfo =>
        match dbmsGetNsId fails nextNsId tables ns with
        | .error err => .error (.davError err)
        | .ok (tables, nsId) =>
            match dbmsSetDeadProperty (fails ∘ .property) tables serialno
                ⟨nsId, name, some xmlinfo, some elem.inner⟩ with
            | (_, some err) => .error (.davError err)
            | (tables, none) => .ok tables

/-! ## Putting out -/

/-- The characters that `apr_strtok` is given. -/
def endsTag (char : Char) : Bool :=
  char == ' ' || char == '>'

/-- `get_dead_prop_elem`. -/
def getDeadPropElem (pr : FilledProperty) : Except Stop Text :=
  match (pr.xmlinfo.dropWhile endsTag).takeWhile fun char =>
      !endsTag char with
  | [] => .error .nullDereference
  | _ :: tag =>
      .ok (pr.xmlinfo ++ pr.value ++ '<' :: '/' :: (tag ++ ['>']))

/-- `dav_repos_db_output_value`: the text, if the property is found. -/
def davReposDbOutputValue (tables : PropertyTables) (dbr : DavReposResource)
    (ns name : Text) : Except Stop (Option Text) :=
  match (ensurePrHash tables dbr).prHash.bind fun hash =>
      hash.lookup (davReposBuildNsNameKey ns name) with
  | none => .ok none
  | some deadProp => (getDeadPropElem deadProp).map some

/-! ## The text of an element -/

section Texts

variable {elem : QuotedElem} {tag : Xml.Tag} {rest : Text}

theorem takeWhile_before
    {front : Text} {char : Char} (absent : char ∉ front) :
    (front ++ char :: rest).takeWhile (· != char) = front := by
  rw [List.takeWhile_append_of_pos, List.takeWhile_cons_of_neg (by simp),
    List.append_nil]
  intro other member
  rw [bne_iff_ne]
  rintro rfl
  exact absent member

/-- The tag is cut out with its attributes, and without the slash. -/
theorem startTag_full :
    startTag elem.full = some (elem.tag.opening ++ ['>']) := by
  have absent := elem.tag.tagEnd_notMem_opening
  unfold QuotedElem.full startTag
  split
  next =>
      have before : (elem.tag.opening ++ ['/', '>']).takeWhile (· != '>') =
          elem.tag.opening ++ ['/'] := by
        rw [List.append_cons]
        apply takeWhile_before
        rw [List.mem_append, not_or]
        exact ⟨absent, by decide⟩
      rw [if_pos (List.mem_append_right _ (by decide)), before]
      simp only [List.getLast?_concat, if_true, List.length_append,
        List.length_singleton, Nat.add_sub_cancel, List.take_left]
  next =>
      have before : (elem.tag.opening ++ ['>'] ++
          (elem.inner ++ elem.tag.closing)).takeWhile (· != '>') =
            elem.tag.opening := by
        rw [List.append_assoc]
        exact takeWhile_before absent
      rw [if_pos (List.mem_append_left _
        (List.mem_append_right _ (List.mem_singleton_self _))), before]
      simp only [if_neg elem.tag.getLast?_opening]
      rw [List.append_assoc, List.take_left]

/-- The end tag is that of the element. -/
theorem getDeadPropElem_opening
    {pr : FilledProperty} (isTag : pr.xmlinfo = tag.opening ++ ['>']) :
    getDeadPropElem pr =
      .ok (tag.opening ++ ['>'] ++ pr.value ++ tag.closing) := by
  rcases tag with ⟨⟨name, nonempty, chars⟩, written⟩
  have inName : ∀ char ∈ '<' :: name, (!endsTag char) = true := by
    intro char member
    rcases List.mem_cons.mp member with rfl | member
    · decide
    · have isName := chars char member
      have noBlank := @Xml.isNameChar_ne char ' ' isName (by decide)
      have noEnd := @Xml.isNameChar_ne char '>' isName (by decide)
      simp [endsTag, noBlank, noEnd]
  have split : pr.xmlinfo =
      '<' :: name ++ (written.flatMap Xml.Attribute.text ++ ['>']) := by
    rw [isTag]
    simp [Xml.Tag.opening]
  have behind : (written.flatMap Xml.Attribute.text ++ ['>']).takeWhile
      (fun char => !endsTag char) = [] := by
    cases written with
    | nil => rfl
    | cons first others => rfl
  have token : (pr.xmlinfo.dropWhile endsTag).takeWhile
      (fun char => !endsTag char) = '<' :: name := by
    rw [split]
    show List.takeWhile _ ('<' :: name ++ _) = _
    rw [List.takeWhile_append_of_pos inName, behind, List.append_nil]
  unfold getDeadPropElem
  rw [token, isTag]
  rfl

/-- The text that is put out is read as the text that was given. -/
theorem element_putOut :
    Xml.element (elem.tag.opening ++ ['>'] ++ elem.inner ++
      elem.tag.closing) = Xml.element elem.full := by
  unfold QuotedElem.full
  split
  next isEmpty =>
      rw [elem.noInner isEmpty, List.append_nil, Xml.element, Xml.element,
        Xml.read_opening_closing]
  next => rw [List.append_assoc _ elem.inner]

end Texts

/-! ## The hash -/

section Hash

variable {pr before behind : List FilledProperty} {entry : FilledProperty}
  {wanted : Text}

/-- `pr_hash` of the properties. -/
def hashOf (pr : List FilledProperty) : PrHash :=
  pr.foldl (fun hash deadProp => hash.insert (propertyKey deadProp) deadProp) ∅

/-- Of the properties with a key one is found, if there is one. -/
theorem exists_lookup_hashOf
    (listed : wanted ∈ pr.map propertyKey) :
    ∃ entry ∈ pr, propertyKey entry = wanted ∧
      (hashOf pr).lookup wanted = some entry := by
  induction pr using List.reverseRecOn with
  | nil => cases listed
  | append_singleton pr last induction =>
      unfold hashOf
      rw [List.foldl_concat]
      by_cases same : propertyKey last = wanted
      · refine ⟨last, List.mem_append_right _ (List.mem_singleton_self _),
          same, ?_⟩
        rw [← same]
        exact AList.lookup_insert _
      · rw [List.map_append, List.mem_append] at listed
        have earlier : wanted ∈ pr.map propertyKey := by
          rcases listed with earlier | isLast
          · exact earlier
          · exact absurd (List.mem_singleton.mp isLast).symm same
        rcases induction earlier with ⟨entry, member, isWanted, found⟩
        refine ⟨entry, List.mem_append_left _ member, isWanted, ?_⟩
        rw [AList.lookup_insert_ne (Ne.symm same)]
        exact found

/-- The last property with a key is found. -/
theorem lookup_hashOf_last
    (last : ∀ other ∈ behind, propertyKey other ≠ propertyKey entry) :
    (hashOf (before ++ entry :: behind)).lookup (propertyKey entry) =
      some entry := by
  induction behind using List.reverseRecOn with
  | nil =>
      unfold hashOf
      rw [List.foldl_concat]
      exact AList.lookup_insert _
  | append_singleton behind final induction =>
      have other := last final
        (List.mem_append_right _ (List.mem_singleton_self _))
      have rest := induction fun other member =>
        last other (List.mem_append_left _ member)
      unfold hashOf at rest ⊢
      rw [← List.cons_append, ← List.append_assoc, List.foldl_concat,
        AList.lookup_insert_ne (Ne.symm other)]
      exact rest

theorem lookup_hashOf_eq_none (absent : wanted ∉ pr.map propertyKey) :
    (hashOf pr).lookup wanted = none := by
  rw [AList.lookup_eq_none]
  intro member
  rcases mem_keys_foldl_insert.mp member with listed | inEmpty
  · exact absent listed
  · exact AList.notMem_empty _ inEmpty

end Hash

/-! ## Keys -/

section Keys

variable {ns other name otherName : Text}

/-- The namespace as it stands in a key. -/
def keyNamespace (ns : Text) : Text :=
  if ns = [] then nullNamespace else ns

/-- A key tells the name and what stands for the namespace. -/
theorem davReposBuildNsNameKey_eq_iff
    (free : '\t' ∉ name) (otherFree : '\t' ∉ otherName) :
    davReposBuildNsNameKey ns name = davReposBuildNsNameKey other otherName ↔
      name = otherName ∧ keyNamespace ns = keyNamespace other := by
  constructor
  · intro same
    -- the name is what stands behind the last tab
    have reversed := congrArg List.reverse same
    unfold davReposBuildNsNameKey at reversed
    rw [List.reverse_append, List.reverse_append, List.reverse_cons,
      List.reverse_cons, List.append_assoc, List.append_assoc,
      List.singleton_append, List.singleton_append] at reversed
    have names := congrArg (List.takeWhile (· != '\t')) reversed
    rw [takeWhile_before (by rwa [List.mem_reverse]),
      takeWhile_before (by rwa [List.mem_reverse]), List.reverse_inj] at names
    rw [names] at reversed
    have namespaces := List.append_cancel_left reversed
    exact ⟨names, List.reverse_inj.mp (List.cons.inj namespaces).2⟩
  · rintro ⟨rfl, same⟩
    show keyNamespace ns ++ _ = keyNamespace other ++ _
    rw [same]

end Keys

/-! ## What is given back -/

/--
The properties of a resource as the query may list them: rows with the same
name come in any order.
-/
structure IsFilled (tables : PropertyTables) (serialno : Id)
    (pr : List FilledProperty) : Prop where
  perm : pr.Perm (dbmsFillDeadProperty tables serialno [])
  sorted : pr.Pairwise fun first second =>
    first.name.map Char.toNat ≤ second.name.map Char.toNat

/-- The text that is put out for the property is read as the element. -/
def IsGivenBack (tables : PropertyTables) (serialno : Id) (ns name : Text)
    (element : Xml.Element) : Prop :=
  ∀ pr, IsFilled tables serialno pr →
    ∃ text,
      davReposDbOutputValue tables { serialno := serialno, pr := pr } ns
          name = .ok (some text) ∧
        Xml.element text = some element

/-- The text of a property is that of an element with its names. -/
def IsDescribed (pr : FilledProperty) : Prop :=
  ∃ text element, getDeadPropElem pr = .ok text ∧
    Xml.element text = some element ∧
    propName element = (pr.namespaceName, pr.name)

/-- Namespaces have one row, and properties are elements. -/
structure IsSound (tables : PropertyTables) : Prop where
  distinct : (tables.namespaces.map Prod.snd).Nodup
  fits : ∀ space ∈ tables.namespaces, space.2.length ≤ 4096
  noTab : ∀ row ∈ tables.properties, '\t' ∉ row.name
  described : ∀ row ∈ tables.properties, ∀ space ∈ tables.namespaces,
    space.1 = row.namespaceId → IsDescribed (filledProperty (row, space))

section Stores

variable {fails : StoreStatement → Bool} {nextNsId nsId serialno : Id}
  {type : DavResourceType} {tables named after : PropertyTables}
  {ns column : Text} {name : ElementName} {elem : QuotedElem}
  {pr : List FilledProperty} {entry : FilledProperty}

/-- The namespace of an id, and what else `dbms_get_ns_id` leaves. -/
structure IsNamed (tables named : PropertyTables) (ns : Text) (nsId : Id)
    (column : Text) : Prop where
  properties : named.properties = tables.properties
  listed : (nsId, column) ∈ named.namespaces
  spaces : named.namespaces = tables.namespaces ∧ column = ns ∨
    named.namespaces = tables.namespaces ++ [(nsId, column)] ∧
      ns ∉ tables.namespaces.map Prod.snd ∧ varchar 4096 ns = some column

theorem exists_isNamed
    (given : dbmsGetNsId fails nextNsId tables ns = .ok (named, nsId)) :
    ∃ column, IsNamed tables named ns nsId column := by
  unfold dbmsGetNsId at given
  split at given
  next => cases given
  next =>
      split at given
      next row found =>
          rcases Prod.mk.inj (Except.ok.inj given) with ⟨rfl, rfl⟩
          have isNs := List.find?_some found
          rw [beq_iff_eq] at isNs
          refine ⟨ns, rfl, ?_, Or.inl ⟨rfl, rfl⟩⟩
          rw [← isNs]
          exact List.mem_of_find?_eq_some found
      next absent =>
          split at given
          next => cases given
          next column taken =>
              split at given
              next =>
                  split at given
                  next => cases given
                  next =>
                      rcases Prod.mk.inj (Except.ok.inj given) with
                        ⟨rfl, rfl⟩
                      refine ⟨column, rfl, List.mem_append_right _
                        (List.mem_singleton_self _), Or.inr ⟨rfl, ?_, taken⟩⟩
                      intro listed
                      rcases List.mem_map.mp listed with ⟨row, member, isNs⟩
                      exact List.find?_eq_none.mp absent row member
                        (beq_iff_eq.mpr isNs)
              next => cases given

theorem namespaces_dbmsSetDeadProperty
    (fails : Statement → Bool) (tables : PropertyTables) (serialno : Id)
    (pr : DavReposProperty) :
    (dbmsSetDeadProperty fails tables serialno pr).1.namespaces =
      tables.namespaces := by
  unfold dbmsSetDeadProperty dbInsertProperty
  simp only
  repeat' split
  all_goals rfl

/-- What a store that succeeds has done. -/
theorem exists_isSet
    (stored : davReposDbStore fails nextNsId type tables serialno ns name
      elem = .ok after) :
    ∃ named nsId column, IsNamed tables named ns nsId column ∧
      after.namespaces = named.namespaces ∧
      DeadProperties.IsSet named after serialno
        ⟨nsId, name, some (elem.tag.opening ++ ['>']), some elem.inner⟩ := by
  unfold davReposDbStore at stored
  rw [startTag_full] at stored
  split at stored
  next => cases stored
  next =>
      simp only at stored
      split at stored
      next => cases stored
      next named nsId given =>
          rcases exists_isNamed given with ⟨column, isNamed⟩
          let pr : DavReposProperty :=
            ⟨nsId, name, some (elem.tag.opening ++ ['>']), some elem.inner⟩
          have spaces := namespaces_dbmsSetDeadProperty (fails ∘ .property)
            named serialno pr
          have cases := DeadProperties.dbmsSetDeadProperty_cases
            (fails ∘ .property) named serialno pr
          cases set : dbmsSetDeadProperty (fails ∘ .property) named serialno
              pr with
          | mk done err =>
              rw [set] at stored spaces cases
              cases err with
              | some err => cases stored
              | none =>
                  rcases Except.ok.inj stored with rfl
                  refine ⟨named, nsId, column, isNamed, spaces, ?_⟩
                  rcases cases with ⟨failed, -⟩ | ⟨-, isSet⟩
                  · exact absurd rfl failed
                  · exact isSet

theorem davReposDbOutputValue_eq
    (isFilled : IsFilled tables serialno pr) (ns name : Text) :
    davReposDbOutputValue tables { serialno := serialno, pr := pr } ns name =
      match (hashOf pr).lookup (davReposBuildNsNameKey ns name) with
      | none => .ok none
      | some deadProp => (getDeadPropElem deadProp).map some := by
  have filled : dbmsFillDeadProperty tables serialno pr = pr := by
    by_cases empty : pr = []
    · subst empty
      exact isFilled.perm.nil_eq.symm
    · exact if_pos empty
  unfold davReposDbOutputValue ensurePrHash davReposBuildPrHash
  simp only [filled]
  rfl

/-- The entries that a set has made. -/
theorem getDeadPropElem_set
    (isSet : DeadProperties.IsSet named after serialno
      ⟨nsId, name, some (elem.tag.opening ++ ['>']), some elem.inner⟩)
    (listed : entry ∈ dbmsFillDeadProperty after serialno [])
    (isNs : entry.nsId = nsId) (isName : entry.name = name.text) :
    ∃ text, getDeadPropElem entry = .ok text ∧
      Xml.element text = Xml.element elem.full := by
  have lists := DeadProperties.lists_of_rows isSet.of_key.1 isSet.of_key.2
  rcases lists.2 entry listed isNs isName with ⟨xmlinfo, value⟩
  refine ⟨_, getDeadPropElem_opening (Option.some.inj xmlinfo), ?_⟩
  rw [Option.some.inj value]
  exact element_putOut

/-! ## What is in the way -/

variable {element : Xml.Element} {pair : Text × Text}

theorem mem_storedNames :
    pair ∈ storedNames tables serialno ↔
      ∃ entry ∈ dbmsFillDeadProperty tables serialno [],
        (entry.namespaceName, entry.name) = pair := by
  rw [← (@map_dbmsFillDeadProperty tables serialno).mem_iff, List.mem_map]

theorem isFilled_dbmsFillDeadProperty :
    IsFilled tables serialno (dbmsFillDeadProperty tables serialno []) := by
  refine ⟨List.Perm.refl _, ?_⟩
  rw [dbmsFillDeadProperty, if_neg (not_not.mpr rfl), List.pairwise_map]
  exact Sql.orderBy_pairwise _ _

/-- The same properties, with one of them behind those with its name. -/
theorem exists_isFilled_last
    (listed : entry ∈ dbmsFillDeadProperty tables serialno []) :
    ∃ before behind, IsFilled tables serialno (before ++ entry :: behind) ∧
      ∀ other ∈ behind, other.name ≠ entry.name := by
  let rows := dbmsFillDeadProperty tables serialno []
  let codes := fun entry : FilledProperty => entry.name.map Char.toNat
  rcases Sql.orderBy_concat codes (rows.erase entry) entry with
    ⟨before, behind, split, greater⟩
  refine ⟨before, behind, ⟨?_, ?_⟩, ?_⟩
  · rw [← split]
    have moved : (rows.erase entry ++ [entry]).Perm rows :=
      List.perm_append_comm.trans (List.perm_cons_erase listed).symm
    exact (List.perm_insertionSort _ _).trans moved
  · rw [← split]
    exact Sql.orderBy_pairwise codes _
  · intro other member same
    have less := greater other member
    simp only [codes, same] at less
    exact lt_irrefl _ less

/-- The namespaces of properties that were there were there as well. -/
theorem IsNamed.mem_of_joined
    {row : Property} {space : Id × Text}
    (isNamed : IsNamed tables named ns nsId column)
    (member : row ∈ tables.properties) (listed : space ∈ named.namespaces)
    (joined : space.1 = row.namespaceId) : space ∈ tables.namespaces := by
  rcases isNamed.spaces with ⟨same, -⟩ | ⟨appended, -, -⟩
  · exact same ▸ listed
  · rcases List.mem_map.mp (tables.namespaceExists row member) with
      ⟨old, oldListed, isNs⟩
    have inNamed : old ∈ named.namespaces := by
      rw [appended]
      exact List.mem_append_left _ oldListed
    have one := List.inj_on_of_nodup_map named.namespaceKeys listed inNamed
      (joined.trans isNs.symm)
    rw [one]
    exact oldListed

theorem IsNamed.fits
    (isNamed : IsNamed tables named ns nsId column) (sound : IsSound tables) :
    ∀ space ∈ named.namespaces, space.2.length ≤ 4096 := by
  intro space member
  rcases isNamed.spaces with ⟨same, -⟩ | ⟨appended, -, taken⟩
  · exact sound.fits space (same ▸ member)
  · rw [appended] at member
    rcases List.mem_append.mp member with old | isNew
    · exact sound.fits space old
    · rw [List.mem_singleton.mp isNew]
      exact varchar_length taken

/-- A set leaves names without tabs. -/
theorem noTab_isSet
    (sound : IsSound tables) (free : '\t' ∉ name.text)
    (isNamed : IsNamed tables named ns nsId column)
    (isSet : DeadProperties.IsSet named after serialno
      ⟨nsId, name, some (elem.tag.opening ++ ['>']), some elem.inner⟩)
    (listed : entry ∈ dbmsFillDeadProperty after serialno []) :
    '\t' ∉ entry.name := by
  rcases DeadProperties.mem_dbmsFillDeadProperty.mp listed with
    ⟨row, member, -, space, -, -, rfl⟩
  by_cases same : DeadProperties.key row = (serialno, nsId, name.text)
  · have isName : row.name = name.text :=
      congrArg (fun key => key.2.2) same
    show '\t' ∉ row.name
    rw [isName]
    exact free
  · have old := (isSet.of_other_key same).mp member
    rw [isNamed.properties] at old
    exact sound.noTab row old

/-- Without another property under its key the stored one is found. -/
theorem isGivenBack_of_alone
    (sound : IsSound tables) (free : '\t' ∉ name.text)
    (isNamed : IsNamed tables named ns nsId ns)
    (spaces : after.namespaces = named.namespaces)
    (isSet : DeadProperties.IsSet named after serialno
      ⟨nsId, name, some (elem.tag.opening ++ ['>']), some elem.inner⟩)
    (reads : Xml.element elem.full = some element)
    (alone : ∀ pair ∈ storedNames tables serialno,
      pairKey pair = pairKey (ns, name.text) → pair = (ns, name.text)) :
    IsGivenBack after serialno ns name.text element := by
  intro pr isFilled
  rw [davReposDbOutputValue_eq isFilled]
  have listed : davReposBuildNsNameKey ns name.text ∈ pr.map propertyKey := by
    rcases isSet.of_key.1 with ⟨row, member, same⟩
    rcases Prod.mk.inj same with ⟨isOf, rest⟩
    rcases Prod.mk.inj rest with ⟨isNs, isName⟩
    have ours : filledProperty (row, (nsId, ns)) ∈
        dbmsFillDeadProperty after serialno [] :=
      DeadProperties.mem_dbmsFillDeadProperty.mpr
        ⟨row, member, isOf, (nsId, ns), spaces ▸ isNamed.listed, isNs.symm,
          rfl⟩
    refine List.mem_map.mpr ⟨_, isFilled.perm.mem_iff.mpr ours, ?_⟩
    show davReposBuildNsNameKey ns row.name = _
    rw [isName]
  rcases exists_lookup_hashOf listed with ⟨entry, member, isWanted, found⟩
  rw [found]
  have filled := isFilled.perm.mem_iff.mp member
  have noTab := noTab_isSet sound free isNamed isSet filled
  rcases DeadProperties.mem_dbmsFillDeadProperty.mp filled with
    ⟨row, rowMember, isOf, space, spaceMember, joined, rfl⟩
  have isName : row.name = name.text :=
    ((davReposBuildNsNameKey_eq_iff noTab free).mp isWanted).1
  have isNs : row.namespaceId = nsId := by
    by_contra other
    have old : row ∈ tables.properties := by
      rw [← isNamed.properties]
      apply (isSet.of_other_key _).mp rowMember
      intro same
      exact other (congrArg (fun key => key.2.1) same)
    rw [spaces] at spaceMember
    have inTables := isNamed.mem_of_joined old spaceMember joined
    have stored : (space.2, row.name) ∈ storedNames tables serialno :=
      mem_storedNames.mpr ⟨filledProperty (row, space),
        DeadProperties.mem_dbmsFillDeadProperty.mpr
          ⟨row, old, isOf, space, inTables, joined, rfl⟩, rfl⟩
    have sameNs : space.2 = ns :=
      congrArg Prod.fst (alone _ stored isWanted)
    rcases isNamed.spaces with ⟨same, -⟩ | ⟨-, absent, -⟩
    · have listed : (nsId, ns) ∈ tables.namespaces := same ▸ isNamed.listed
      have one := List.inj_on_of_nodup_map sound.distinct inTables listed
        sameNs
      exact other (joined.symm.trans (congrArg Prod.fst one))
    · exact absent (List.mem_map.mpr ⟨space, inTables, sameNs⟩)
  rcases getDeadPropElem_set isSet filled isNs isName with
    ⟨text, putOut, isElement⟩
  refine ⟨text, ?_, isElement.trans reads⟩
  simp only [putOut]
  rfl

/-- Another property under the key may be found in its place. -/
theorem not_isGivenBack_of_other
    (sound : IsSound tables) (free : '\t' ∉ name.text)
    (isNamed : IsNamed tables named ns nsId ns)
    (spaces : after.namespaces = named.namespaces)
    (isSet : DeadProperties.IsSet named after serialno
      ⟨nsId, name, some (elem.tag.opening ++ ['>']), some elem.inner⟩)
    (isName : propName element = (ns, name.text))
    (stored : pair ∈ storedNames tables serialno)
    (sameKey : pairKey pair = pairKey (ns, name.text))
    (other : pair ≠ (ns, name.text)) :
    ¬ IsGivenBack after serialno ns name.text element := by
  intro given
  rcases mem_storedNames.mp stored with ⟨entry, listed, rfl⟩
  rcases DeadProperties.mem_dbmsFillDeadProperty.mp listed with
    ⟨row, member, isOf, space, spaceMember, joined, rfl⟩
  have names := (davReposBuildNsNameKey_eq_iff (sound.noTab row member)
    free).mp sameKey
  have isOther : space.2 ≠ ns := by
    intro same
    apply other
    exact Prod.ext same names.1
  have inNamed : space ∈ named.namespaces := by
    rcases isNamed.spaces with ⟨same, -⟩ | ⟨appended, -, -⟩
    · rwa [same]
    · rw [appended]
      exact List.mem_append_left _ spaceMember
  have kept : row ∈ after.properties := by
    apply (isSet.of_other_key _).mpr
    · rw [isNamed.properties]
      exact member
    · intro same
      have isNs : row.namespaceId = nsId :=
        congrArg (fun key => key.2.1) same
      have one := List.inj_on_of_nodup_map named.namespaceKeys inNamed
        isNamed.listed (joined.trans isNs)
      exact isOther (congrArg Prod.snd one)
  have filled : filledProperty (row, space) ∈
      dbmsFillDeadProperty after serialno [] :=
    DeadProperties.mem_dbmsFillDeadProperty.mpr
      ⟨row, kept, isOf, space, spaces ▸ inNamed, joined, rfl⟩
  rcases exists_isFilled_last filled with
    ⟨before, behind, isFilled, otherNames⟩
  have last : ∀ other ∈ behind,
      propertyKey other ≠ propertyKey (filledProperty (row, space)) := by
    intro other isBehind same
    have otherListed : other ∈ dbmsFillDeadProperty after serialno [] :=
      isFilled.perm.mem_iff.mp (List.mem_append_right _
        (List.mem_cons_of_mem _ isBehind))
    exact otherNames other isBehind ((davReposBuildNsNameKey_eq_iff
      (noTab_isSet sound free isNamed isSet otherListed)
      (sound.noTab row member)).mp same).1
  have found := @lookup_hashOf_last before behind
    (filledProperty (row, space)) last
  have isKey : davReposBuildNsNameKey ns name.text =
      propertyKey (filledProperty (row, space)) := sameKey.symm
  rcases sound.described row member space spaceMember joined with
    ⟨text, described, putOut, isDescribed, itsName⟩
  rcases given _ isFilled with ⟨givenText, givenOut, isElement⟩
  rw [davReposDbOutputValue_eq isFilled, isKey, found] at givenOut
  simp only [putOut] at givenOut
  rcases Option.some.inj (Except.ok.inj givenOut) with rfl
  rw [isDescribed] at isElement
  rw [Option.some.inj isElement, isName] at itsName
  exact isOther (congrArg Prod.fst itsName).symm

/-- A namespace that has been cut is not found again. -/
theorem not_isGivenBack_of_isCut
    (sound : IsSound tables) (free : '\t' ∉ name.text)
    (isNamed : IsNamed tables named ns nsId column)
    (spaces : after.namespaces = named.namespaces)
    (isSet : DeadProperties.IsSet named after serialno
      ⟨nsId, name, some (elem.tag.opening ++ ['>']), some elem.inner⟩)
    (isCut : IsCut 4096 ns) :
    ¬ IsGivenBack after serialno ns name.text element := by
  intro given
  have absent : davReposBuildNsNameKey ns name.text ∉
      (dbmsFillDeadProperty after serialno []).map propertyKey := by
    intro listed
    rcases List.mem_map.mp listed with ⟨entry, filled, same⟩
    have noTab := noTab_isSet sound free isNamed isSet filled
    have stands := ((davReposBuildNsNameKey_eq_iff noTab free).mp same).2
    rcases DeadProperties.mem_dbmsFillDeadProperty.mp filled with
      ⟨row, -, -, space, spaceMember, -, rfl⟩
    have short := isNamed.fits sound space (spaces ▸ spaceMember)
    have long := isCut.1
    have isNs : keyNamespace ns = ns := by
      apply if_neg
      rintro rfl
      exact absurd long (by decide)
    have atMost : (keyNamespace space.2).length ≤ 4096 := by
      unfold keyNamespace
      split
      · decide
      · exact short
    have length : (keyNamespace space.2).length = ns.length :=
      congrArg List.length (stands.trans isNs)
    omega
  rcases given _ isFilled_dbmsFillDeadProperty with ⟨text, putOut, -⟩
  rw [davReposDbOutputValue_eq isFilled_dbmsFillDeadProperty,
    lookup_hashOf_eq_none absent] at putOut
  cases putOut

theorem IsNamed.column_eq
    (isNamed : IsNamed tables named ns nsId column)
    (notCut : ¬ IsCut 4096 ns) : column = ns := by
  rcases isNamed.spaces with ⟨-, same⟩ | ⟨-, -, taken⟩
  · exact same
  · rcases varchar_cases 4096 ns with
      ⟨whole, -⟩ | ⟨refused, -⟩ | ⟨-, -, -, -, isCut⟩
    · rw [whole] at taken
      exact (Option.some.inj taken).symm
    · rw [refused] at taken
      cases taken
    · exact absurd isCut notCut

/-- A store leaves the tables as they should be. -/
theorem isSound_davReposDbStore
    (sound : IsSound tables) (free : '\t' ∉ name.text)
    (notCut : ¬ IsCut 4096 ns)
    (reads : Xml.element elem.full = some element)
    (isName : propName element = (ns, name.text))
    (stored : davReposDbStore fails nextNsId type tables serialno ns name
      elem = .ok after) :
    IsSound after := by
  rcases exists_isSet stored with
    ⟨named, nsId, column, isNamed, spaces, isSet⟩
  rcases isNamed.column_eq notCut with rfl
  constructor
  · rw [spaces]
    rcases isNamed.spaces with ⟨same, -⟩ | ⟨appended, absent, -⟩
    · rw [same]
      exact sound.distinct
    · rw [appended]
      exact Sql.nodup_key_append sound.distinct absent
  · rw [spaces]
    exact isNamed.fits sound
  · intro row member
    by_cases same : DeadProperties.key row = (serialno, nsId, name.text)
    · have isText : row.name = name.text :=
        congrArg (fun key => key.2.2) same
      rw [isText]
      exact free
    · have old := (isSet.of_other_key same).mp member
      rw [isNamed.properties] at old
      exact sound.noTab row old
  · intro row member space spaceMember joined
    rw [spaces] at spaceMember
    by_cases same : DeadProperties.key row = (serialno, nsId, name.text)
    · rcases Prod.mk.inj same with ⟨isOf, rest⟩
      rcases Prod.mk.inj rest with ⟨isNs, isText⟩
      have one := List.inj_on_of_nodup_map named.namespaceKeys spaceMember
        isNamed.listed (joined.trans isNs)
      have filled : filledProperty (row, space) ∈
          dbmsFillDeadProperty after serialno [] :=
        DeadProperties.mem_dbmsFillDeadProperty.mpr
          ⟨row, member, isOf, space, spaces ▸ spaceMember, joined, rfl⟩
      rcases getDeadPropElem_set isSet filled isNs isText with
        ⟨text, putOut, isElement⟩
      refine ⟨text, element, putOut, isElement.trans reads, ?_⟩
      rw [isName]
      exact Prod.ext (congrArg Prod.snd one).symm isText.symm
    · have old := (isSet.of_other_key same).mp member
      rw [isNamed.properties] at old
      exact sound.described row old space
        (isNamed.mem_of_joined old spaceMember joined) joined

/--
A property is given back as the element that has been stored if and only if
its namespace is not cut by its column and the resource has no other property
under the same key.
-/
theorem isGivenBack_iff
    (sound : IsSound tables) (free : '\t' ∉ name.text)
    (reads : Xml.element elem.full = some element)
    (isName : propName element = (ns, name.text))
    (stored : davReposDbStore fails nextNsId type tables serialno ns name
      elem = .ok after) :
    IsGivenBack after serialno ns name.text element ↔
      ¬ IsCut 4096 ns ∧
        ∀ pair ∈ storedNames tables serialno,
          pairKey pair = pairKey (ns, name.text) →
            pair = (ns, name.text) := by
  rcases exists_isSet stored with
    ⟨named, nsId, column, isNamed, spaces, isSet⟩
  constructor
  · intro given
    have notCut : ¬ IsCut 4096 ns := fun isCut =>
      not_isGivenBack_of_isCut sound free isNamed spaces isSet isCut given
    rcases isNamed.column_eq notCut with rfl
    refine ⟨notCut, fun pair member sameKey => ?_⟩
    by_contra other
    exact not_isGivenBack_of_other sound free isNamed spaces isSet isName
      member sameKey other given
  · rintro ⟨notCut, alone⟩
    rcases isNamed.column_eq notCut with rfl
    exact isGivenBack_of_alone sound free isNamed spaces isSet reads alone

end Stores

/-! ## A name in two namespaces -/

/-- The name of a colour. -/
def colour : Xml.Name :=
  ⟨"c".toList, by decide, List.all_eq_true.mp (by decide)⟩

/-- The declaration that comes with every text. -/
def davDeclaration : Xml.Attribute where
  key := ⟨"xmlns:ns0".toList, by decide, List.all_eq_true.mp (by decide)⟩
  value := "DAV:".toList
  plain := List.all_iff_forall_prop.mp (by decide)

def englishAttribute : Xml.Attribute where
  key := ⟨"xml:lang".toList, by decide, List.all_eq_true.mp (by decide)⟩
  value := "en".toList
  plain := List.all_iff_forall_prop.mp (by decide)

/-- `<c xml:lang="en" xmlns:ns0="DAV:">red</c>`. -/
def plainElem : QuotedElem where
  tag := ⟨colour, [englishAttribute, davDeclaration]⟩
  isEmpty := false
  inner := "red".toList
  noInner := nofun

def plainElement : Xml.Element :=
  .element none "c".toList (some "en".toList) [] [.text "red".toList]

/-- The start tag of a colour in the namespace that is a blank. -/
def blankTag : Text :=
  "<ns1:c xmlns:ns1=\" \" xmlns:ns0=\"DAV:\">".toList

theorem blankTables_keys :
    ([(1, " ".toList)].map (Prod.fst : Id × Text → Id)).Nodup :=
  List.nodup_singleton 1

/-- The tables with that property, which has no content. -/
def blankTables : PropertyTables where
  properties := [⟨1, 1, "c".toList, 1, blankTag, []⟩]
  nextId := 2
  namespaces := [(1, " ".toList)]
  resources := [1]
  namespaceKeys := blankTables_keys
  namespaceExists := by simp

/-- The element of that property. -/
def blankElement : Xml.Element :=
  .element (some " ".toList) "c".toList none [] []

def noTables : PropertyTables where
  properties := []
  nextId := 1
  namespaces := []
  resources := [1]
  namespaceKeys := List.nodup_nil
  namespaceExists := nofun

def colourName : ElementName :=
  ⟨"c".toList, by decide⟩

/-- The attributes of the element. -/
def english : Xml.Attributes :=
  [("xml:lang".toList, "en".toList), ("xmlns:ns0".toList, "DAV:".toList)]

def davScope : Xml.Scope :=
  [("ns0".toList, "DAV:".toList)]

theorem read_plainElem :
    Xml.read plainElem.full =
      some (.element "c".toList english [.text "red".toList]) := by
  have scanned : Xml.run Xml.start plainElem.full =
      some ⟨[.opening "c".toList english, .text "red".toList,
        .closing "c".toList], .content []⟩ := by
    decide +kernel
  unfold Xml.read
  rw [scanned]
  rfl

theorem element_plainElem :
    Xml.element plainElem.full = some plainElement := by
  have declared : Xml.declarations english = davScope := by decide +kernel
  have named : Xml.splitName "c".toList = ([], "c".toList) := by decide
  have lang : english.lookup Xml.langKey = some "en".toList := by
    decide +kernel
  have resolved : Xml.resolveAttributes davScope english = some [] := by
    decide +kernel
  unfold Xml.element
  rw [read_plainElem, Option.bind_some]
  unfold Xml.resolve
  simp only [declared, named, lang, List.append_nil, resolved]
  rfl

/-- The text of the property with the blank namespace. -/
def blankText : Text :=
  blankTag ++ "</ns1:c>".toList

def blankAttributes : Xml.Attributes :=
  [("xmlns:ns1".toList, " ".toList), ("xmlns:ns0".toList, "DAV:".toList)]

def blankScope : Xml.Scope :=
  ("ns1".toList, " ".toList) :: davScope

theorem element_blankText : Xml.element blankText = some blankElement := by
  have scanned : Xml.run Xml.start blankText =
      some ⟨[.opening "ns1:c".toList blankAttributes, .closing "ns1:c".toList],
        .content []⟩ := by
    decide +kernel
  have read : Xml.read blankText =
      some (.element "ns1:c".toList blankAttributes []) := by
    unfold Xml.read
    rw [scanned]
    rfl
  have declared : Xml.declarations blankAttributes = blankScope := by
    decide +kernel
  have named : Xml.splitName "ns1:c".toList = ("ns1".toList, "c".toList) := by
    decide
  have lang : blankAttributes.lookup Xml.langKey = none := by
    decide +kernel
  have resolved : Xml.resolveAttributes blankScope blankAttributes =
      some [] := by
    decide +kernel
  unfold Xml.element
  rw [read, Option.bind_some]
  unfold Xml.resolve
  simp only [declared, named, lang, List.append_nil, resolved]
  rfl

theorem isSound_noTables : IsSound noTables where
  distinct := List.nodup_nil
  fits := nofun
  noTab := nofun
  described := nofun

theorem isSound_blankTables : IsSound blankTables where
  distinct := List.nodup_singleton _
  fits := by decide
  noTab := by decide
  described := by
    intro row member space spaceMember _
    rcases List.mem_singleton.mp member with rfl
    rcases List.mem_singleton.mp spaceMember with rfl
    exact ⟨blankText, blankElement, rfl, element_blankText, by decide⟩

/-- No statement fails for a reason of its own. -/
def works : StoreStatement → Bool :=
  fun _ => false

theorem notCut_nil : ¬ IsCut 4096 [] :=
  fun isCut => absurd isCut.1 (by decide)

/-- The namespace of the element is new, or there is one more. -/
theorem exists_stored
    {tables : PropertyTables} (few : tables = noTables ∨ tables = blankTables) :
    ∃ after, davReposDbStore works 2 .other tables 1 [] colourName
      plainElem = .ok after := by
  unfold davReposDbStore
  rw [startTag_full]
  rcases few with rfl | rfl
  · exact ⟨_, rfl⟩
  · exact ⟨_, rfl⟩

theorem isGivenBack_noTables :
    ∃ after, davReposDbStore works 2 .other noTables 1 [] colourName
        plainElem = .ok after ∧
      IsGivenBack after 1 [] "c".toList plainElement := by
  rcases exists_stored (Or.inl rfl) with ⟨after, stored⟩
  have given := isGivenBack_iff isSound_noTables (by decide)
    element_plainElem rfl stored
  exact ⟨after, stored, given.mpr ⟨notCut_nil, by decide⟩⟩

/-- The property in the namespace that is a blank is given for the other. -/
theorem not_isGivenBack :
    ¬ ∀ (fails : StoreStatement → Bool) (nextNsId : Id)
        (type : DavResourceType) (tables after : PropertyTables)
        (serialno : Id) (ns : Text) (name : ElementName) (elem : QuotedElem)
        (element : Xml.Element),
      IsSound tables → '\t' ∉ name.text →
        Xml.element elem.full = some element →
        propName element = (ns, name.text) →
        davReposDbStore fails nextNsId type tables serialno ns name elem =
          .ok after →
        IsGivenBack after serialno ns name.text element := by
  intro always
  rcases exists_stored (Or.inr rfl) with ⟨after, stored⟩
  have given := always works 2 .other blankTables after 1 [] colourName
    plainElem plainElement isSound_blankTables (by decide) element_plainElem
    rfl stored
  rcases exists_isSet stored with
    ⟨named, nsId, column, isNamed, spaces, isSet⟩
  rcases isNamed.column_eq notCut_nil with rfl
  have listed : (" ".toList, "c".toList) ∈ storedNames blankTables 1 := by
    decide +kernel
  exact not_isGivenBack_of_other isSound_blankTables (by decide) isNamed
    spaces isSet rfl listed rfl (by decide) given

end Limestone.PropertyXml
