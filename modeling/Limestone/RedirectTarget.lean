import Limestone.BridgeProperty
import Limestone.UriLookup

/-!
# The target of a redirect reference

The lookup says how far a URI resolves by a prefix of the squeezed URI behind
the root path.  `sabridge_get_property` cuts as many characters off the URI
that is neither squeezed nor without its root path.  The rest is the part of
the URI that does not resolve only when both lengths are the same.
-/

namespace Limestone.RedirectTarget

open Library
open BridgeProperty
open DbmsBind
open DbmsDbd
open DbmsLookup
open UriLookup

/-- The resources that the tokens of a URI behind the root path lead to. -/
def reached (tables : PropertyTables) (rest : Text) : List Id :=
  walk tables.binds.rows rootCollectionId (Segments.tokens '/' rest)

/-- The binds by which they are reached. -/
def reachedBinds (tables : PropertyTables) (rest : Text) : List Bind :=
  walkBinds tables.binds.rows rootCollectionId (Segments.tokens '/' rest)

/-- The deepest of them. -/
def deepestResource (tables : PropertyTables) (rest : Text) : Id :=
  (reached tables rest).getLast?.getD rootCollectionId

/-- Every token leads to a resource. -/
def ResolvesWhole (tables : PropertyTables) (rest : Text) : Prop :=
  (reached tables rest).length = (Segments.tokens '/' rest).length

instance (tables : PropertyTables) (rest : Text) :
    Decidable (ResolvesWhole tables rest) :=
  inferInstanceAs (Decidable (_ = _))

/-- The part of a URI behind the last token that leads to a resource. -/
def unresolvedPart (tables : PropertyTables) (rest : Text) : Text :=
  if ResolvesWhole tables rest then []
  else Segments.behind '/' (reached tables rest).length rest

/-- A resource is a redirect reference with a target. -/
structure IsRedirect (tables : PropertyTables) (id : Id)
    (target : Text) : Prop where
  type : ∃ row, tables.resources.find? (fun row => row.id == id) =
    some row ∧ row.type = .redirect
  target : ∃ row, tables.redirectrefs.find? (fun row =>
    row.resourceId == id) = some row ∧ row.reftarget = target

/-- A call returns a resource with a target. -/
def SetsReftarget (outcome : Outcome) (reftarget : Text) : Prop :=
  outcome.reftarget = some reftarget

instance (outcome : Outcome) (reftarget : Text) :
    Decidable (SetsReftarget outcome reftarget) :=
  inferInstanceAs (Decidable (_ = _))

/--
As many characters are cut off as the first `count` tokens take up behind the
root path.
-/
structure IsCutRight (rootPath rest : Text) (count : Nat) : Prop where
  slash : rest.head? = some '/' →
    rootPath = [] ∧
      compactUri (Segments.through '/' count rest) =
        Segments.through '/' count rest
  noSlash : rest.head? ≠ some '/' →
    ∀ next, (Segments.tokens '/' rest)[count]? = some next →
      rootPath.length + (Segments.through '/' count rest).length =
        (compactUri (Segments.through '/' count rest)).length + 1 +
          next.length

/-! ## The part that is cut off -/

section Cut

variable {rootPath rest : Text} {count : Nat}

/-- Two rests of a text are the same iff as much is cut off. -/
theorem drop_inj
    {text : Text} {cut other : Nat}
    (within : cut ≤ text.length)
    (otherWithin : other ≤ text.length) :
    text.drop cut = text.drop other ↔ cut = other := by
  constructor
  · intro same
    have length := congrArg List.length same
    rw [List.length_drop, List.length_drop] at length
    omega
  · exact congrArg text.drop

/-- The text of the first tokens begins as the whole text does. -/
theorem exists_through
    {head : Char}
    (positive : 0 < count)
    (short : count < (Segments.tokens '/' (head :: rest)).length) :
    ∃ part, Segments.through '/' count (head :: rest) = head :: part ∧
      Segments.tokens '/' (head :: part) =
        (Segments.tokens '/' (head :: rest)).take count ∧
      Segments.tokens '/' (head :: part) ≠ [] ∧
      (head :: part).getLast? ≠ some '/' := by
  have spells := Segments.spellsFirst_through positive (Nat.le_of_lt short)
  have nonempty : (Segments.tokens '/' (head :: rest)).take count ≠ [] := by
    rw [← List.length_pos_iff, List.length_take]
    omega
  cases through : Segments.through '/' count (head :: rest) with
  | nil =>
      have none := spells.spells
      rw [through] at none
      exact (nonempty none.symm).elim
  | cons first part =>
      rw [through] at spells
      have same := (List.cons_prefix_cons.mp spells.isPrefix).1
      subst same
      refine ⟨part, rfl, spells.spells, ?_, spells.ends⟩
      rw [spells.spells]
      exact nonempty

/-- Behind a slash the lookup resolves the text of the first tokens. -/
theorem length_beforeSep_of_slash
    (slash : rest.head? = some '/')
    (positive : 0 < count)
    (short : count < (Segments.tokens '/' rest).length) :
    (Segments.beforeSep '/' count (compactUri rest)).length =
      (compactUri (Segments.through '/' count rest)).length := by
  cases rest with
  | nil => cases slash
  | cons head rest =>
      rcases Option.some.inj slash with rfl
      rcases exists_through positive short with
        ⟨part, through, tokens, some, ends⟩
      rw [Segments.tokens_sep_cons] at short some tokens
      rw [Segments.tokens_sep_cons] at tokens
      have nonempty : Segments.tokens '/' rest ≠ [] := by
        rw [← List.length_pos_iff]
        omega
      have segments : ∀ name ∈ Segments.tokens '/' rest,
          Segments.IsSegment '/' name :=
        fun _ => Segments.isSegment_of_mem_tokens
      rcases Segments.squeeze_sep nonempty with ⟨trail, isTrail, shape⟩
      rw [through, compactUri, compactUri, shape,
        Segments.beforeSep_slashed segments isTrail (Nat.le_of_lt short),
        Segments.squeeze_eq_slashed some ends, tokens]

/-- Without a slash in front it resolves one token more. -/
theorem length_beforeSep_of_no_slash
    {next : Text}
    (noSlash : rest.head? ≠ some '/')
    (positive : 0 < count)
    (isNext : (Segments.tokens '/' rest)[count]? = some next) :
    (Segments.beforeSep '/' count (compactUri rest)).length =
      (compactUri (Segments.through '/' count rest)).length + 1 +
        next.length := by
  have short : count < (Segments.tokens '/' rest).length :=
    (List.getElem?_eq_some_iff.mp isNext).1
  cases rest with
  | nil => cases short
  | cons head rest =>
      have other : head ≠ '/' := fun same => noSlash (congrArg some same)
      rcases exists_through positive short with
        ⟨part, through, tokens, -, ends⟩
      have segments : ∀ name ∈ Segments.tokens '/' (head :: rest),
          Segments.IsSegment '/' name :=
        fun _ => Segments.isSegment_of_mem_tokens
      rcases Segments.squeeze_other other with ⟨-, trail, isTrail, shape⟩
      rw [through, compactUri, compactUri, shape,
        Segments.beforeSep_joined segments isTrail short,
        Segments.squeeze_eq_joined other ends, tokens,
        Segments.length_joined_take positive isNext]

theorem length_compactUri_le (uri : Text) :
    (compactUri uri).length ≤ uri.length :=
  (Segments.squeeze_sublist uri).length_le

/-- The lengths are the same iff the cut is right. -/
theorem length_beforeSep_eq_iff
    (positive : 0 < count)
    (short : count < (Segments.tokens '/' rest).length) :
    (Segments.beforeSep '/' count (compactUri rest)).length =
        (rootPath ++ Segments.through '/' count rest).length ↔
      IsCutRight rootPath rest count := by
  have shorter := length_compactUri_le (Segments.through '/' count rest)
  rw [List.length_append]
  by_cases slash : rest.head? = some '/'
  · rw [length_beforeSep_of_slash slash positive short]
    constructor
    · intro same
      refine ⟨fun _ => ⟨?_, ?_⟩, fun noSlash => (noSlash slash).elim⟩
      · apply List.length_eq_zero_iff.mp
        omega
      · apply Segments.length_squeeze_eq_iff.mp
        rw [compactUri] at same shorter
        omega
    · intro isRight
      rcases isRight.slash slash with ⟨rfl, squeezed⟩
      rw [squeezed, List.length_nil, Nat.zero_add]
  · have isNext := List.getElem?_eq_getElem short
    rw [length_beforeSep_of_no_slash slash positive isNext]
    constructor
    · intro same
      refine ⟨fun found => (slash found).elim, fun _ next found => ?_⟩
      rcases Option.some.inj (isNext.symm.trans found) with rfl
      exact same.symm
    · intro isRight
      exact (isRight.noSlash slash _ isNext).symm

/-- What is cut off is the resolved part iff the cut is right. -/
theorem drop_eq_behind_iff
    (positive : 0 < count)
    (short : count < (Segments.tokens '/' rest).length) :
    (rootPath ++ rest).drop
          (Segments.beforeSep '/' count (compactUri rest)).length =
        Segments.behind '/' count rest ↔
      IsCutRight rootPath rest count := by
  have split := Segments.through_append_behind '/' count rest
  have whole : rootPath ++ rest =
      (rootPath ++ Segments.through '/' count rest) ++
        Segments.behind '/' count rest := by
    rw [List.append_assoc, split]
  have behind : Segments.behind '/' count rest =
      (rootPath ++ rest).drop
        (rootPath ++ Segments.through '/' count rest).length := by
    rw [whole, List.drop_left]
  have within : (Segments.beforeSep '/' count (compactUri rest)).length ≤
      (compactUri rest).length :=
    List.IsPrefix.length_le (Segments.beforeSep_prefix count _)
  have squeezed := length_compactUri_le rest
  have through : (Segments.through '/' count rest).length ≤ rest.length :=
    List.IsPrefix.length_le (Segments.through_isPrefix '/' count rest)
  rw [behind, drop_inj, length_beforeSep_eq_iff positive short]
  · rw [List.length_append]
    omega
  · rw [List.length_append, List.length_append]
    omega

end Cut

/-! ## The call -/

section Call

variable {tables : PropertyTables} {rootPath rest target : Text}

theorem setsReftarget_getPropertyOf_iff
    {r : DavReposResource}
    (redirect : IsRedirect tables r.serialno target)
    (fresh : r.reftarget = none)
    (bind : DbmsBindList) (uriNotFound : Bool) (reftarget : Text) :
    SetsReftarget (getPropertyOf false tables r (some bind) uriNotFound)
        reftarget ↔
      target ++ absentUri r bind = reftarget := by
  rcases redirect with
    ⟨⟨row, found, type⟩, targetRow, foundTarget, isTarget⟩
  have loaded : (dbmsGetResource false tables r).1.resourcetype =
      some .redirect ∧
      (dbmsGetResource false tables r).1.reftarget = none ∧
      (dbmsGetResource false tables r).1.serialno = r.serialno ∧
      (dbmsGetResource false tables r).1.uri = r.uri := by
    simp only [dbmsGetResource, Bool.false_eq_true, if_false, found, type,
      fresh, and_self]
  rcases loaded with ⟨type, unset, serialno, uri⟩
  have typed : ∀ props : DavReposResource,
      props.resourcetype = some .redirect →
        getTypedProps false tables props = (props, none) := by
    intro props redirect
    simp only [getTypedProps, redirect, dbmsGetMediaProps,
      dbmsGetDeltavProps]
  simp only [getPropertyOf, type, ne_eq, not_true_eq_false, and_false,
    if_false, if_true, dbmsGetRedirectProps, unset, Option.isSome_none,
    Bool.false_eq_true, serialno, foundTarget]
  rw [typed]
  · simp [SetsReftarget, Outcome.reftarget, extendReftarget, absentUri, uri,
      isTarget]
  · simp [extendReftarget]

/-- What of a URI behind the root path does not resolve is put behind. -/
def PutsRest (tables : PropertyTables) (rootPath rest : Text) : Prop :=
  Segments.tokens '/' rest = [] ∨
    '?' ∉ rest ∧ reached tables rest ≠ [] ∧
      (ResolvesWhole tables rest ∨
        IsCutRight rootPath rest (reached tables rest).length)

/-- A record without an id is read by its URI. -/
theorem sabridgeGetProperty_of_uri
    {r : DavReposResource}
    (unknown : r.serialno = 0)
    (isRoot : r.rootPath = some rootPath)
    (isUri : r.uri = some (rootPath ++ rest)) :
    sabridgeGetProperty false tables r =
      getLookedUp false tables r
        (dbmsLookupUri false tables.binds.rows (lastmodified tables)
          rest) := by
  have within : rootPath <:+: rootPath ++ rest :=
    (List.prefix_append rootPath rest).isInfix
  rw [sabridgeGetProperty, if_neg (not_not.mpr unknown)]
  simp only [isRoot, isUri, if_pos within, List.drop_left]

theorem sabridgeGetProperty_newResource :
    sabridgeGetProperty false tables
        (newResource rootPath (rootPath ++ rest)) =
      getLookedUp false tables (newResource rootPath (rootPath ++ rest))
        (dbmsLookupUri false tables.binds.rows (lastmodified tables)
          rest) :=
  sabridgeGetProperty_of_uri rfl rfl rfl

/-- A bind that was found gives the target and a rest of the URI. -/
theorem setsReftarget_found_iff
    {bind : DbmsBindList} {id : Id}
    (redirect : IsRedirect tables id target)
    (nonzero : id ≠ 0)
    (isId : (if bind.resourceId = -1 then bind.parentId
      else bind.resourceId) = id)
    (reftarget : Text) :
    SetsReftarget
        (getLookedUp false tables (newResource rootPath (rootPath ++ rest))
          (.found bind))
        (target ++ reftarget) ↔
      absentUri (newResource rootPath (rootPath ++ rest)) bind =
        reftarget := by
  simp only [getLookedUp, isId, if_neg nonzero]
  rw [setsReftarget_getPropertyOf_iff redirect rfl, List.append_cancel_left_eq]
  rfl

/-- No token: the root collection itself is the redirect reference. -/
theorem setsReftarget_of_no_tokens
    (tokens : Segments.tokens '/' rest = [])
    (redirect : IsRedirect tables (deepestResource tables rest) target) :
    SetsReftarget
      (sabridgeGetProperty false tables
        (newResource rootPath (rootPath ++ rest)))
      (target ++ unresolvedPart tables rest) := by
  have root : dbmsLookupUri false tables.binds.rows (lastmodified tables)
      rest = .found { resourceId := rootCollectionId
                      updatedAt := rootUpdatedAt } := by
    simp only [dbmsLookupUri, compactUri, Segments.tokens_squeeze, tokens]
  have start : deepestResource tables rest = rootCollectionId := by
    rw [deepestResource, reached, tokens]
    rfl
  have whole : unresolvedPart tables rest = [] := by
    rw [unresolvedPart, if_pos]
    rw [ResolvesWhole, reached, tokens]
    rfl
  rw [start] at redirect
  rw [sabridgeGetProperty_newResource, root, whole,
    setsReftarget_found_iff redirect (by decide) rfl]
  rfl

section Chain

variable {last : Bind}

theorem resourceId_pos
    (ends : (reachedBinds tables rest).getLast? = some last) :
    0 < last.resourceId :=
  (tables.binds.positive last
    (mem_of_mem_walkBinds (List.mem_of_getLast? ends))).2

theorem reached_eq :
    reached tables rest =
      (reachedBinds tables rest).map Bind.resourceId :=
  walk_eq tables.binds rootCollectionId (Segments.tokens '/' rest)

theorem length_reached :
    (reached tables rest).length = (reachedBinds tables rest).length := by
  rw [reached_eq, List.length_map]

/-- All tokens lead to a resource: nothing is put behind the target. -/
theorem setsReftarget_of_whole
    (redirect : IsRedirect tables last.resourceId target)
    (whole : ResolvesWhole tables rest)
    (ends : (reachedBinds tables rest).getLast? = some last) :
    SetsReftarget
      (getLookedUp false tables (newResource rootPath (rootPath ++ rest))
        (.found (readRow (lastmodified tables) (compactUri rest)
          (chainRow (reachedBinds tables rest)
            (Segments.tokens '/' rest).length))))
      (target ++ []) := by
  have positive := resourceId_pos ends
  have row : chainRow (reachedBinds tables rest)
      (Segments.tokens '/' rest).length =
        (reachedBinds tables rest).map some := by
    rw [chainRow, ← length_reached, whole, Nat.sub_self, List.replicate_zero,
      List.append_nil]
  have read := readRow_complete (lastmodified tables) (compactUri rest) ends
  have isLast : (readRow (lastmodified tables) (compactUri rest)
      ((reachedBinds tables rest).map some)).resourceId ≠ -1 := by
    rw [read.1]
    exact Int.ne_of_gt (Int.lt_trans (by decide) positive)
  rw [row, setsReftarget_found_iff redirect (Int.ne_of_gt positive)]
  · rw [absentUri, readRow_complete_uri]
  · rw [if_neg isLast, read.1]

/-- Some tokens do not: as much as the lookup resolves is cut off. -/
theorem setsReftarget_iff_of_inPart
    (redirect : IsRedirect tables last.resourceId target)
    (inPart : ¬ ResolvesWhole tables rest)
    (ends : (reachedBinds tables rest).getLast? = some last) :
    SetsReftarget
        (getLookedUp false tables (newResource rootPath (rootPath ++ rest))
          (.found (readRow (lastmodified tables) (compactUri rest)
            (chainRow (reachedBinds tables rest)
              (Segments.tokens '/' rest).length))))
        (target ++ Segments.behind '/' (reached tables rest).length rest) ↔
      IsCutRight rootPath rest (reached tables rest).length := by
  have positive := resourceId_pos ends
  have atMost := length_walkBinds_le tables.binds.rows rootCollectionId
    (Segments.tokens '/' rest)
  have short : (reached tables rest).length <
      (Segments.tokens '/' rest).length := by
    rw [ResolvesWhole] at inPart
    have bounded : (reached tables rest).length ≤
        (Segments.tokens '/' rest).length := by
      rw [length_reached]
      exact atMost
    omega
  have some : 0 < (reached tables rest).length := by
    rw [length_reached, List.length_pos_iff]
    intro none
    rw [none] at ends
    cases ends
  have missing : (Segments.tokens '/' rest).length -
      (reachedBinds tables rest).length ≠ 0 := by
    rw [length_reached] at short
    omega
  have read := readRow_inPart (lastmodified tables) (compactUri rest) missing
    ends
  rw [chainRow, setsReftarget_found_iff redirect (Int.ne_of_gt positive)]
  · rw [absentUri, read.2.2, ← length_reached]
    exact drop_eq_behind_iff some short
  · rw [if_pos read.1, read.2.1]

end Chain

/--
The target of a redirect reference is followed by what does not resolve iff
the whole URI resolves, or the root path is empty and no slash is repeated.
-/
theorem setsReftarget_iff
    (tables : PropertyTables) (rootPath rest : Text)
    (redirect : IsRedirect tables (deepestResource tables rest) target) :
    SetsReftarget
        (sabridgeGetProperty false tables
          (newResource rootPath (rootPath ++ rest)))
        (target ++ unresolvedPart tables rest) ↔
      PutsRest tables rootPath rest := by
  by_cases tokens : Segments.tokens '/' rest = []
  · exact iff_of_true (setsReftarget_of_no_tokens tokens redirect)
      (Or.inl tokens)
  have nothing : ∀ r err, r.reftarget = none → ¬ SetsReftarget
      (.returned r err) (target ++ unresolvedPart tables rest) := by
    intro r err unset set
    rw [SetsReftarget, Outcome.reftarget, unset] at set
    cases set
  have lookup : dbmsLookupUri false tables.binds.rows (lastmodified tables)
      rest =
        if '?' ∈ rest then .undefined
        else if false = true then
          .error ⟨httpInternalServerError, "dbms_execute error"⟩
        else if reachedBinds tables rest = [] then .noBind
        else
          .found (readRow (lastmodified tables) (compactUri rest)
            (chainRow (reachedBinds tables rest)
              (Segments.tokens '/' rest).length)) :=
    dbmsLookupUri_eq tables.binds false (lastmodified tables) tokens
  rw [sabridgeGetProperty_newResource, lookup, PutsRest, or_iff_right tokens]
  by_cases question : '?' ∈ rest
  · rw [if_pos question]
    refine iff_of_false ?_ fun fine => fine.1 question
    intro set
    cases set
  rw [if_neg question, if_neg Bool.false_ne_true,
    and_iff_right question]
  have walked : reached tables rest =
      (reachedBinds tables rest).map Bind.resourceId := reached_eq
  by_cases unresolved : reachedBinds tables rest = []
  · rw [if_pos unresolved]
    refine iff_of_false (nothing _ _ rfl) fun fine => fine.1 ?_
    rw [walked, unresolved]
    rfl
  rw [if_neg unresolved]
  cases ends : (reachedBinds tables rest).getLast? with
  | none => exact (unresolved (List.getLast?_eq_none_iff.mp ends)).elim
  | some last =>
      have deepest : deepestResource tables rest = last.resourceId := by
        rw [deepestResource, walked, List.getLast?_map, ends]
        rfl
      rw [deepest] at redirect
      have some : reached tables rest ≠ [] := by
        rw [walked]
        simpa using unresolved
      rw [and_iff_right some]
      by_cases whole : ResolvesWhole tables rest
      · refine iff_of_true ?_ (Or.inl whole)
        rw [unresolvedPart, if_pos whole]
        exact setsReftarget_of_whole redirect whole ends
      · rw [unresolvedPart, if_neg whole, or_iff_right whole]
        exact setsReftarget_iff_of_inPart redirect whole ends

end Call

/-! ## A redirect reference below a root path -/

/-- `/old` is a redirect reference to `/new`. -/
def movedPages : PropertyTables where
  binds :=
    { rows := [⟨5, "old".toList, rootCollectionId, 9, none⟩]
      pkey := by decide
      collectionIdKey := by decide
      positive := by decide }
  resources :=
    [{ id := 9
       uuid := []
       createdAt := []
       displayname := none
       contentlanguage := []
       comment := none
       type := .redirect
       ownerId := 7
       creatorId := 7
       limebarState := none
       lastmodified := none }]
  redirectrefs := [⟨9, "t".toList, "/new".toList⟩]
  collections := []
  media := []
  principals := []
  versions := []
  vhrs := []
  vcrs := []

theorem isRedirect_movedPages :
    IsRedirect movedPages (deepestResource movedPages "/old/page".toList)
      "/new".toList := by
  have deepest : deepestResource movedPages "/old/page".toList = 9 := by
    decide +kernel
  rw [deepest]
  exact ⟨⟨_, rfl, rfl⟩, ⟨_, rfl, rfl⟩⟩

/-- Without a root path the rest of the URI is put behind the target. -/
theorem setsReftarget_iff_movedPages :
    SetsReftarget
      (sabridgeGetProperty false movedPages
        (newResource [] "/old/page".toList))
      "/new/page".toList := by
  have puts : PutsRest movedPages [] "/old/page".toList := by
    right
    refine ⟨by decide, by decide +kernel, Or.inr ⟨?_, ?_⟩⟩
    · intro _
      exact ⟨rfl, by decide +kernel⟩
    · intro noSlash
      exact (noSlash rfl).elim
  have rest : unresolvedPart movedPages "/old/page".toList =
      "/page".toList := by decide +kernel
  have set := (setsReftarget_iff movedPages [] "/old/page".toList
    isRedirect_movedPages).mpr puts
  rw [rest] at set
  exact set

/-- With a root path a part of the URI that has been resolved is put there. -/
theorem rootPath_not_setsReftarget :
    IsRedirect movedPages (deepestResource movedPages "/old/page".toList)
        "/new".toList ∧
      unresolvedPart movedPages "/old/page".toList = "/page".toList ∧
      SetsReftarget
        (sabridgeGetProperty false movedPages
          (newResource "/dav".toList ("/dav".toList ++ "/old/page".toList)))
        "/new/old/page".toList ∧
      ¬ SetsReftarget
        (sabridgeGetProperty false movedPages
          (newResource "/dav".toList ("/dav".toList ++ "/old/page".toList)))
        ("/new".toList ++
          unresolvedPart movedPages "/old/page".toList) := by
  refine ⟨isRedirect_movedPages, ?_, ?_, ?_⟩
  · decide +kernel
  · decide +kernel
  · decide +kernel

end Limestone.RedirectTarget
