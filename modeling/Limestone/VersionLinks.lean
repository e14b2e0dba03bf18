import Limestone.AprXml
import Limestone.VersionHistories
import Limestone.Library.OrderBy
import Limestone.Library.SqlText
import Mathlib.Data.List.TakeWhile

/-!
# Links between versions: `sabridge_build_vr_pr_hash`

The predecessor and the successor of a version are made of the directory of
its URI and of the neighbouring numbers.  The directory ends with a slash; the
href of the successor puts another one behind it.  Whether there is a
successor is a flag that two functions set in two ways.
-/

namespace Limestone.VersionLinks

open Library
open DbmsDeltav
open VersionHistories

/-! ## The functions of the libraries -/

/-- `ap_make_dirstr_parent` and `apr_xml_quote_string`. -/
structure Libraries where
  makeDirstrParent : Text → Text
  xmlQuoteString : Text → Text
  /-- The text up to its last slash. -/
  dirstr_append : ∀ dir name, '/' ∉ name →
    makeDirstrParent (dir ++ '/' :: name) = dir ++ ['/']
  dirstr_of_not_mem : ∀ name, '/' ∉ name → makeDirstrParent name = []
  quote_injective : Function.Injective xmlQuoteString

/-! ## URIs -/

/-- What the URIs of the versions of a history begin with. -/
def historyDir (rootPath : Text) (vhrId : Id) : Text :=
  rootPath ++ "/history/".toList ++ (toString vhrId).toList

/-- `sabridge_mk_version_uri`. -/
def sabridgeMkVersionUri (rootPath : Text) (vhrId : Id) (vnum : Int) : Text :=
  historyDir rootPath vhrId ++ '/' :: (toString vnum).toList

/-- `dav_repos_mk_href`. -/
def davReposMkHref (libraries : Libraries) (uri : Text) : Text :=
  AprXml.davReposMkHref libraries.xmlQuoteString uri

/-! ## The record of a version -/

/-- The fields of a `dav_repos_resource` that the links are made of. -/
structure VersionDbr where
  serialno : Id
  uri : Text
  version : Int
  vcrId : Id
  /-- `lastversion`. -/
  lastversion : Int
deriving DecidableEq, Repr

/-- The record of a version before its properties are loaded. -/
def newVersionDbr (serialno : Id) (uri : Text) : VersionDbr where
  serialno := serialno
  uri := uri
  version := 0
  vcrId := 0
  lastversion := 0

/-- The `checked_id` that `dbms_get_vcr_props` leaves in a record of zeros. -/
def checkedId (tables : VersionTables) (vcrId : Id) : Id :=
  match tables.vcrs.find? fun row => row.resourceId == vcrId with
  | none => 0
  | some vcr => vcr.checkedId

/--
`dbms_get_version_resource_props`, whose error `dbms_get_deltav_props` drops.
-/
def dbmsGetVersionResourceProps (tables : VersionTables) (vr : VersionDbr) :
    VersionDbr :=
  match tables.versions.find? fun row => row.resourceId == vr.serialno with
  | none => vr
  | some row =>
      { vr with
        version := row.number
        vcrId := row.vcrId
        lastversion :=
          if checkedId tables row.vcrId = vr.serialno then 1
          else vr.lastversion }

/-- The last element of a list is marked. -/
def markLast : List VersionDbr → List VersionDbr
  | [] => []
  | [vr] => [{ vr with lastversion := 1 }]
  | vr :: next :: rest => vr :: markLast (next :: rest)

/-- The record that is made of a row of the query. -/
def versionDbr (rootPath : Text) (vhrId : Id) (row : Version) :
    VersionDbr where
  serialno := row.resourceId
  uri := sabridgeMkVersionUri rootPath vhrId row.number
  version := row.number
  vcrId := row.vcrId
  lastversion := 0

/-- `dbms_get_vhr_versions`. -/
def dbmsGetVhrVersions (tables : VersionTables) (rootPath : Text)
    (vhrId : Id) : List VersionDbr :=
  let rows := Sql.orderBy Version.number
    (tables.versions.filter fun version =>
      version.vhrId == vhrId &&
        tables.resources.any fun row => row.1 == version.resourceId)
  markLast (rows.map (versionDbr rootPath vhrId))

/-! ## The links -/

/-- The values of `predecessor-set` and `successor-set`. -/
@[ext]
structure Links where
  predecessorSet : Text
  successorSet : Text
deriving DecidableEq, Repr

/--
The part of `sabridge_build_vr_pr_hash` that builds the links.  Behind it the
resource of the version is looked up, which uses a pointer that is NULL when
no path leads to it.
-/
def sabridgeBuildVrPrHash (libraries : Libraries) (dbR : VersionDbr) : Links :=
  let buff := libraries.makeDirstrParent dbR.uri
  { predecessorSet :=
      if dbR.version ≠ 1 then
        davReposMkHref libraries
          (buff ++ (toString (dbR.version - 1)).toList)
      else []
    successorSet :=
      if dbR.lastversion = 0 then
        davReposMkHref libraries
          (buff ++ '/' :: (toString (dbR.version + 1)).toList)
      else [] }

/-- The links that version `number` of `count` versions is to have. -/
def expectedLinks (libraries : Libraries) (rootPath : Text) (vhrId : Id)
    (count number : Int) : Links where
  predecessorSet :=
    if number = 1 then []
    else davReposMkHref libraries
      (sabridgeMkVersionUri rootPath vhrId (number - 1))
  successorSet :=
    if number = count then []
    else davReposMkHref libraries
      (sabridgeMkVersionUri rootPath vhrId (number + 1))

/-! ## Texts -/

variable {libraries : Libraries} {rootPath : Text} {vhrId : Id}

theorem davReposMkHref_ne_nil (uri : Text) :
    davReposMkHref libraries uri ≠ [] :=
  List.cons_ne_nil _ _

theorem davReposMkHref_injective :
    Function.Injective (davReposMkHref libraries) := by
  intro first second same
  apply libraries.quote_injective
  exact List.append_cancel_left (List.append_cancel_right same)

/-- A directory is empty or ends with a slash. -/
theorem makeDirstrParent_ends (libraries : Libraries) (uri : Text) :
    libraries.makeDirstrParent uri = [] ∨
      ∃ dir, libraries.makeDirstrParent uri = dir ++ ['/'] := by
  by_cases slash : '/' ∈ uri
  · have reversed : '/' ∈ uri.reverse := List.mem_reverse.mpr slash
    rcases List.eq_append_cons_of_mem reversed with ⟨name, dir, split, last⟩
    have parts : uri = dir.reverse ++ '/' :: name.reverse := by
      rw [← List.reverse_reverse uri, split]
      simp
    rw [parts, libraries.dirstr_append _ _ (mt List.mem_reverse.mp last)]
    exact Or.inr ⟨dir.reverse, rfl⟩
  · exact Or.inl (libraries.dirstr_of_not_mem uri slash)

theorem slash_not_mem_toString (number : Int) :
    '/' ∉ (toString number).toList := by
  intro member
  rcases SqlText.mem_toString member with digit | minus
  · exact absurd digit (by decide)
  · exact absurd minus (by decide)

/-- The directory of a history does not end with a slash. -/
theorem historyDir_ne (rootPath : Text) (vhrId : Id) (dir : Text) :
    historyDir rootPath vhrId ≠ dir ++ ['/'] := by
  intro same
  have last := congrArg List.getLast? same
  rw [historyDir, List.getLast?_append, List.getLast?_append,
    List.getLast?_append, List.getLast?_singleton,
    List.getLast?_eq_some_getLast (SqlText.toString_ne_nil vhrId)] at last
  apply slash_not_mem_toString vhrId
  have slash : (toString vhrId).toList.getLast _ = '/' := Option.some.inj last
  rw [← slash]
  exact List.getLast_mem _

/-- A URI of a version is made of its directory, not of a deeper one. -/
theorem href_successor_ne (uri number : Text) :
    davReposMkHref libraries
        (libraries.makeDirstrParent uri ++ '/' :: number) ≠
      davReposMkHref libraries
        (historyDir rootPath vhrId ++ '/' :: number) := by
  intro same
  have dirs := List.append_cancel_right (davReposMkHref_injective same)
  rcases makeDirstrParent_ends libraries uri with none | ⟨dir, ends⟩
  · rw [none] at dirs
    have long := congrArg List.length dirs
    rw [historyDir] at long
    simp at long
  · rw [ends] at dirs
    exact historyDir_ne rootPath vhrId dir dirs.symm

/-! ## The links of a record -/

/--
The links of a version are right iff it is the last one and marked as such,
and its URI is in the directory of the history unless it is the first one.
-/
theorem sabridgeBuildVrPrHash_eq_iff
    {dbR : VersionDbr} {count : Int} :
    sabridgeBuildVrPrHash libraries dbR =
        expectedLinks libraries rootPath vhrId count dbR.version ↔
      (dbR.version = count ∧ dbR.lastversion ≠ 0) ∧
        (dbR.version = 1 ∨ libraries.makeDirstrParent dbR.uri =
          historyDir rootPath vhrId ++ ['/']) := by
  have successor : (sabridgeBuildVrPrHash libraries dbR).successorSet =
        (expectedLinks libraries rootPath vhrId count
          dbR.version).successorSet ↔
      dbR.version = count ∧ dbR.lastversion ≠ 0 := by
    show (if dbR.lastversion = 0 then _ else _) =
      (if dbR.version = count then _ else _) ↔ _
    by_cases unmarked : dbR.lastversion = 0
    · rw [if_pos unmarked]
      constructor
      · intro same
        split at same
        · exact (davReposMkHref_ne_nil _ same).elim
        · exact (href_successor_ne dbR.uri _ same).elim
      · exact fun both => (both.2 unmarked).elim
    · rw [if_neg unmarked]
      constructor
      · intro same
        split at same
        next last => exact ⟨last, unmarked⟩
        next => exact (davReposMkHref_ne_nil _ same.symm).elim
      · rintro ⟨last, _⟩
        exact (if_pos last).symm
  have predecessor : (sabridgeBuildVrPrHash libraries dbR).predecessorSet =
        (expectedLinks libraries rootPath vhrId count
          dbR.version).predecessorSet ↔
      dbR.version = 1 ∨ libraries.makeDirstrParent dbR.uri =
        historyDir rootPath vhrId ++ ['/'] := by
    show (if dbR.version ≠ 1 then _ else _) =
      (if dbR.version = 1 then _ else _) ↔ _
    by_cases first : dbR.version = 1
    · rw [if_neg (not_not.mpr first), if_pos first]
      exact iff_of_true rfl (Or.inl first)
    · rw [if_pos first, if_neg first, davReposMkHref_injective.eq_iff,
        sabridgeMkVersionUri, ← List.singleton_append, ← List.append_assoc,
        List.append_left_inj]
      exact ⟨Or.inr, fun either => either.resolve_left first⟩
  rw [← successor, ← predecessor, Links.ext_iff]
  exact and_comm

/-! ## The records of a history -/

/-- A history of versions `1..n`, whose rows have resources. -/
structure History (tables : VersionTables) (vhrId : Id) : Prop where
  versionsKey : (tables.versions.map Version.resourceId).Nodup
  versionResource : ∀ version ∈ tables.versions,
    version.resourceId ∈ tables.resources.map Prod.fst
  numbered : Numbered tables vhrId

variable {tables : VersionTables} {version : Version}

/-- The count of the versions of a history, the greatest number. -/
def versionCount (tables : VersionTables) (vhrId : Id) : Int :=
  (versionsOf tables vhrId).length

theorem History.number_eq_count_iff
    (history : History tables vhrId)
    (member : version ∈ versionsOf tables vhrId) :
    version.number = versionCount tables vhrId ↔
      ∀ other ∈ versionsOf tables vhrId, other.number ≤ version.number := by
  have bounds := history.numbered.bounds member
  constructor
  · intro last other listed
    rw [last]
    exact (history.numbered.bounds listed).2
  · intro greatest
    have listed : versionCount tables vhrId ∈
        (versionsOf tables vhrId).map Version.number := by
      apply history.numbered.mem_iff.mpr
      apply mem_numbers.mpr
      exact ⟨bounds.1.trans bounds.2, le_rfl⟩
    rcases List.mem_map.mp listed with ⟨other, present, number⟩
    have less := greatest other present
    rw [number] at less
    exact le_antisymm bounds.2 less

/-- The record that the lookup of a version leaves. -/
theorem History.dbmsGetVersionResourceProps_eq
    (history : History tables vhrId)
    (member : version ∈ versionsOf tables vhrId)
    (uri : Text) :
    dbmsGetVersionResourceProps tables
        (newVersionDbr version.resourceId uri) =
      { serialno := version.resourceId
        uri := uri
        version := version.number
        vcrId := version.vcrId
        lastversion :=
          if checkedId tables version.vcrId = version.resourceId then 1
          else 0 } := by
  have listed := (mem_versionsOf.mp member).1
  have found : (tables.versions.find? fun row =>
      row.resourceId == (newVersionDbr version.resourceId uri).serialno) =
        some version :=
    Sql.find_key history.versionsKey listed
  rw [dbmsGetVersionResourceProps, found]
  rfl

/-- One record is marked, that of the greatest number. -/
theorem mem_markLast
    {rows : List Version}
    (sorted : rows.Pairwise fun first later => first.number < later.number)
    {vr : VersionDbr}
    (member : vr ∈ markLast (rows.map (versionDbr rootPath vhrId))) :
    ∃ row ∈ rows,
      vr = { versionDbr rootPath vhrId row with
        lastversion := vr.lastversion } ∧
      (vr.lastversion ≠ 0 ↔ ∀ other ∈ rows, other.number ≤ row.number) := by
  induction rows with
  | nil => cases member
  | cons row rows induction =>
      rw [List.pairwise_cons] at sorted
      cases rows with
      | nil =>
          rcases List.mem_singleton.mp member with rfl
          refine ⟨row, List.mem_singleton_self row, rfl, ?_⟩
          simp
      | cons next rows =>
          rcases List.mem_cons.mp member with rfl | later
          · refine ⟨row, List.mem_cons_self, rfl, ?_⟩
            constructor
            · exact fun marked => (marked rfl).elim
            · intro greatest
              have less := sorted.1 next List.mem_cons_self
              have more := greatest next
                (List.mem_cons_of_mem _ List.mem_cons_self)
              omega
          · rcases induction sorted.2 later with
              ⟨found, listed, equal, marked⟩
            refine ⟨found, List.mem_cons_of_mem _ listed, equal, ?_⟩
            rw [marked]
            constructor
            · intro greatest
              rw [List.forall_mem_cons]
              exact ⟨(sorted.1 found listed).le, greatest⟩
            · exact fun greatest other member =>
                greatest other (List.mem_cons_of_mem _ member)

theorem nodup_numbers (count : Nat) : (numbers count).Nodup := by
  apply List.nodup_range.map
  intro first second same
  have equal : (first : Int) + 1 = second + 1 := same
  omega

theorem History.mem_dbmsGetVhrVersions
    (history : History tables vhrId)
    {vr : VersionDbr}
    (member : vr ∈ dbmsGetVhrVersions tables rootPath vhrId) :
    ∃ row ∈ versionsOf tables vhrId,
      vr = { versionDbr rootPath vhrId row with
        lastversion := vr.lastversion } ∧
      (vr.lastversion ≠ 0 ↔ row.number = versionCount tables vhrId) := by
  have joined : (tables.versions.filter fun version =>
      version.vhrId == vhrId &&
        tables.resources.any fun row => row.1 == version.resourceId) =
      versionsOf tables vhrId := by
    apply List.filter_congr
    intro version listed
    rcases List.mem_map.mp (history.versionResource version listed) with
      ⟨row, stored, id⟩
    have present : (tables.resources.any fun row =>
        row.1 == version.resourceId) = true :=
      List.any_eq_true.mpr ⟨row, stored, beq_iff_eq.mpr id⟩
    rw [present, Bool.and_true]
  have sorted : (Sql.orderBy Version.number
      (versionsOf tables vhrId)).Pairwise fun first later =>
        first.number < later.number := by
    have ordered := Sql.orderBy_pairwise Version.number
      (versionsOf tables vhrId)
    have distinct : (Sql.orderBy Version.number
        (versionsOf tables vhrId)).Pairwise fun first later =>
          first.number ≠ later.number := by
      have order : ((Sql.orderBy Version.number
          (versionsOf tables vhrId)).map Version.number).Perm
            (numbers (versionsOf tables vhrId).length) :=
        ((List.perm_insertionSort _ _).map _).trans history.numbered
      exact List.pairwise_map.mp (order.nodup_iff.mpr (nodup_numbers _))
    exact (ordered.and distinct).imp fun both => lt_of_le_of_ne both.1 both.2
  rw [dbmsGetVhrVersions, joined] at member
  rcases mem_markLast sorted member with ⟨row, listed, equal, marked⟩
  have own : row ∈ versionsOf tables vhrId := Sql.mem_orderBy.mp listed
  refine ⟨row, own, equal, ?_⟩
  rw [marked, history.number_eq_count_iff own]
  simp only [Sql.mem_orderBy]

/-! ## The links of a history -/

/-- Where the links of a version that was looked up are right. -/
def LinksByLookup (libraries : Libraries) (tables : VersionTables)
    (rootPath : Text) (vhrId : Id) (version : Version) (uri : Text) : Prop :=
  (version.number = versionCount tables vhrId ∧
    checkedId tables version.vcrId = version.resourceId) ∧
  (version.number = 1 ∨ libraries.makeDirstrParent uri =
    historyDir rootPath vhrId ++ ['/'])

/--
Of the versions `1..n` of a history only the last one has the right links:
where it was looked up, if a resource is checked in or out from it and its
URI is one of the history; and in the list of the history.
-/
theorem links_eq_expectedLinks_iff
    (libraries : Libraries) (tables : VersionTables) (rootPath : Text)
    (vhrId : Id) (history : History tables vhrId) (version : Version)
    (member : version ∈ versionsOf tables vhrId) :
    (∀ uri,
      sabridgeBuildVrPrHash libraries
          (dbmsGetVersionResourceProps tables
            (newVersionDbr version.resourceId uri)) =
        expectedLinks libraries rootPath vhrId (versionCount tables vhrId)
          version.number ↔
      LinksByLookup libraries tables rootPath vhrId version uri) ∧
    ∀ vr ∈ dbmsGetVhrVersions tables rootPath vhrId,
      vr.serialno = version.resourceId →
      (sabridgeBuildVrPrHash libraries vr =
        expectedLinks libraries rootPath vhrId (versionCount tables vhrId)
          version.number ↔
      version.number = versionCount tables vhrId) := by
  constructor
  · intro uri
    have checked : (if checkedId tables version.vcrId = version.resourceId
        then (1 : Int) else 0) ≠ 0 ↔
          checkedId tables version.vcrId = version.resourceId := by
      simp
    rw [history.dbmsGetVersionResourceProps_eq member uri, LinksByLookup]
    apply sabridgeBuildVrPrHash_eq_iff.trans
    show (_ ∧ (if checkedId tables version.vcrId = version.resourceId
      then (1 : Int) else 0) ≠ 0) ∧ _ ↔ _
    rw [checked]
  · intro vr listed serialno
    rcases history.mem_dbmsGetVhrVersions listed with
      ⟨row, own, equal, marked⟩
    have same : row = version := by
      rw [equal] at serialno
      exact List.inj_on_of_nodup_map history.versionsKey
        (mem_versionsOf.mp own).1 (mem_versionsOf.mp member).1 serialno
    rcases same with rfl
    have dirstr : libraries.makeDirstrParent vr.uri =
        historyDir rootPath vhrId ++ ['/'] := by
      rw [equal]
      exact libraries.dirstr_append _ _ (slash_not_mem_toString row.number)
    have number : vr.version = row.number := by
      rw [equal]
      rfl
    rw [← number, sabridgeBuildVrPrHash_eq_iff, marked, number]
    constructor
    · exact fun right => right.1.1
    · exact fun last => ⟨⟨last, last⟩, Or.inr dirstr⟩

/-! ## The first of two versions -/

def quoteChar (char : Char) : Text :=
  if char = '<' then "&lt;".toList
  else if char = '>' then "&gt;".toList
  else if char = '&' then "&amp;".toList
  else [char]

/-- The first character of a quoted text, and what follows. -/
def readQuoted : Text → Option (Char × Text)
  | [] => none
  | char :: rest =>
      if char = '&' then
        if rest.head? = some 'l' then some ('<', rest.drop 3)
        else if rest.head? = some 'g' then some ('>', rest.drop 3)
        else some ('&', rest.drop 4)
      else some (char, rest)

theorem readQuoted_append (char : Char) (rest : Text) :
    readQuoted (quoteChar char ++ rest) = some (char, rest) := by
  unfold quoteChar
  split
  next less =>
    rw [less]
    rfl
  next =>
    split
    next greater =>
      rw [greater]
      rfl
    next =>
      split
      next ampersand =>
        rw [ampersand]
        rfl
      next other => exact if_neg other

theorem quote_injective :
    Function.Injective fun text : Text => text.flatMap quoteChar := by
  have filled : ∀ char rest, quoteChar char ++ rest ≠ [] := by
    intro char rest
    unfold quoteChar
    repeat' split
    all_goals simp
  intro first second same
  induction first generalizing second with
  | nil =>
      cases second with
      | nil => rfl
      | cons char second => exact (filled char _ same.symm).elim
  | cons char first induction =>
      cases second with
      | nil => exact (filled char _ same).elim
      | cons other second =>
          have read : readQuoted (quoteChar char ++
              first.flatMap quoteChar) =
                readQuoted (quoteChar other ++ second.flatMap quoteChar) :=
            congrArg readQuoted same
          rw [readQuoted_append, readQuoted_append] at read
          rcases Prod.mk.inj (Option.some.inj read) with ⟨rfl, later⟩
          rw [induction later]

/-- The two functions as the libraries have them. -/
def apacheLibraries : Libraries where
  makeDirstrParent := fun uri =>
    (uri.reverse.dropWhile fun char => char != '/').reverse
  xmlQuoteString := fun text => text.flatMap quoteChar
  dirstr_append := by
    intro dir name absent
    have skipped : ∀ char ∈ name.reverse, (char != '/') = true := by
      intro char member
      rw [bne_iff_ne]
      rintro rfl
      exact absent (List.mem_reverse.mp member)
    rw [List.reverse_append, List.reverse_cons, List.append_assoc,
      List.dropWhile_append_of_pos skipped]
    simp
  dirstr_of_not_mem := by
    intro name absent
    rw [List.reverse_eq_nil_iff, List.dropWhile_eq_nil_iff]
    intro char member
    rw [bne_iff_ne]
    rintro rfl
    exact absent (List.mem_reverse.mp member)
  quote_injective := quote_injective

/-- Resource 12 is checked in from the second version of history 13. -/
def twoVersions : VersionTables where
  resources := [(12, .versioned), (13, .versionHistory), (14, .version),
    (15, .version)]
  nextId := 16
  versions := [⟨14, 1, 12, 13⟩, ⟨15, 2, 12, 13⟩]
  vhrs := [⟨13, 14⟩]
  vcrs := [⟨12, 15, 13, .checkedIn, none, false⟩]

theorem history_twoVersions : History twoVersions 13 where
  versionsKey := by decide
  versionResource := by decide
  numbered := by
    unfold Numbered
    decide

theorem links_eq_expectedLinks_example :
    (∀ uri,
      sabridgeBuildVrPrHash apacheLibraries
          (dbmsGetVersionResourceProps twoVersions (newVersionDbr 14 uri)) =
        expectedLinks apacheLibraries [] 13 (versionCount twoVersions 13) 1 ↔
      LinksByLookup apacheLibraries twoVersions [] 13 ⟨14, 1, 12, 13⟩ uri) ∧
    ∀ vr ∈ dbmsGetVhrVersions twoVersions [] 13, vr.serialno = 14 →
      (sabridgeBuildVrPrHash apacheLibraries vr =
        expectedLinks apacheLibraries [] 13 (versionCount twoVersions 13) 1 ↔
      (1 : Int) = versionCount twoVersions 13) :=
  links_eq_expectedLinks_iff apacheLibraries twoVersions [] 13
    history_twoVersions ⟨14, 1, 12, 13⟩ (by decide)

/-- The successor of the first version has one slash too many. -/
theorem not_links_eq_expectedLinks :
    ¬ ∀ (libraries : Libraries) (tables : VersionTables) (rootPath : Text)
        (vhrId : Id), History tables vhrId →
      ∀ version ∈ versionsOf tables vhrId,
        sabridgeBuildVrPrHash libraries
            (dbmsGetVersionResourceProps tables
              (newVersionDbr version.resourceId
                (sabridgeMkVersionUri rootPath vhrId version.number))) =
          expectedLinks libraries rootPath vhrId (versionCount tables vhrId)
            version.number := by
  intro right
  have first := right apacheLibraries twoVersions [] 13 history_twoVersions
    ⟨14, 1, 12, 13⟩ (by decide)
  exact absurd (congrArg Links.successorSet first) (by decide +kernel)

end Limestone.VersionLinks
