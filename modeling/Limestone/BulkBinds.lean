import Limestone.BindInsert

/-!
# The bulk insertion of binds

The text of `dbms_insert_bind_list` has a length that is known, and so is the
condition under which it fits its buffer.  If it fits, it holds no question
mark and no name has a quote, then the database gets the rows that single
insertions would give it; else the names differ, or nothing is inserted.
-/

namespace Limestone.BulkBinds

open Library
open Library.SqlScan
open Library.SqlInsert
open DbmsBind
open DbmsDbd
open BridgeMkcol
open BindInsert

variable {text rest : Text} {time : TimeText} {entry : BindEntry}
  {entries : List BindEntry}

/-! ## Escaped texts -/

theorem dbmsEscape_eq_escape (text : Text) :
    dbmsEscape text = escape false text := by
  have same : (fun char => if char = quote then [quote, quote] else [char]) =
      fun char : Char =>
        if char = '\'' ∨ false = true ∧ char = '\\' then [char, char]
        else [char] := by
    funext char
    by_cases quoted : char = '\''
    · rcases quoted with rfl
      rfl
    · have noQuote : ¬ char = quote := quoted
      rw [if_neg noQuote, if_neg]
      rintro (isQuote | ⟨never, _⟩)
      · exact quoted isQuote
      · cases never
  rw [dbmsEscape, escape, same]

theorem length_dbmsEscape (text : Text) :
    (dbmsEscape text).length = text.length + text.count quote := by
  induction text with
  | nil => rfl
  | cons char text induction =>
      rw [dbmsEscape_cons, List.length_append, induction, List.count_cons]
      by_cases quoted : char = quote
      · rcases quoted with rfl
        simp
        omega
      · simp [quoted]
        omega

theorem dbmsEscape_eq_self (plain : quote ∉ text) : dbmsEscape text = text := by
  induction text with
  | nil => rfl
  | cons char text induction =>
      rw [List.mem_cons, not_or] at plain
      rw [dbmsEscape_cons, if_neg (Ne.symm plain.1), induction plain.2]
      rfl

theorem count_dbmsEscape (text : Text) :
    (dbmsEscape text).count quote = 2 * text.count quote := by
  induction text with
  | nil => rfl
  | cons char text induction =>
      rw [dbmsEscape_cons, List.count_append, induction, List.count_cons]
      by_cases quoted : char = quote
      · rcases quoted with rfl
        simp
        omega
      · simp [quoted]

/-! ## Bytes -/

theorem byteLength_append :
    byteLength (text ++ rest) = byteLength text + byteLength rest := by
  simp [byteLength]

theorem byteLength_cons (char : Char) :
    byteLength (char :: text) = char.utf8Size + byteLength text := by
  simp [byteLength]

theorem byteLength_dbmsEscape (text : Text) :
    byteLength (dbmsEscape text) = byteLength text + text.count quote := by
  induction text with
  | nil => rfl
  | cons char text induction =>
      rw [dbmsEscape_cons, byteLength_append, induction, byteLength_cons,
        List.count_cons]
      by_cases quoted : char = quote
      · rcases quoted with rfl
        have oneByte : quote.utf8Size = 1 := by decide
        simp [byteLength_cons, oneByte]
        simp [byteLength]
        omega
      · simp [byteLength_cons, quoted]
        simp [byteLength]
        omega

/-- A character of a number or of a time. -/
def IsPlain (char : Char) : Prop :=
  char.isDigit = true ∨ char ∈ ['-', ':', ' ']

theorem IsPlain.small {char : Char} (plain : IsPlain char) :
    32 ≤ char.toNat ∧ char.toNat ≤ 58 ∧ char ≠ quote ∧ char ≠ '?' := by
  rcases plain with digit | member
  · have range : 48 ≤ char.toNat ∧ char.toNat ≤ 57 :=
      Char.isDigit_iff_toNat.mp digit
    refine ⟨by omega, by omega, ?_, ?_⟩
    · rintro rfl
      exact absurd range (by decide)
    · rintro rfl
      exact absurd range (by decide)
  · have few : ∀ char ∈ ['-', ':', ' '], 32 ≤ char.toNat ∧
        char.toNat ≤ 58 ∧ char ≠ quote ∧ char ≠ '?' :=
      SqlText.forall_mem_of_all (by decide)
    exact few char member

theorem byteLength_of_plain (plain : ∀ char ∈ text, IsPlain char) :
    byteLength text = text.length := by
  induction text with
  | nil => rfl
  | cons char text induction =>
      rw [List.forall_mem_cons] at plain
      have small := plain.1.small
      have oneByte : char.utf8Size = 1 := by
        apply Char.utf8Size_eq_one_iff.mpr
        have value : char.val.toNat ≤ 127 := by
          show char.toNat ≤ 127
          omega
        exact UInt32.le_iff_toNat_le.mpr value
      rw [byteLength_cons, oneByte, induction plain.2, List.length_cons]
      omega

theorem plain_toString (number : Int) :
    ∀ char ∈ (toString number).toList, IsPlain char := by
  intro char member
  rcases SqlText.mem_toString member with digit | rfl
  · exact Or.inl digit
  · exact Or.inr (by decide)

/-- The characters of a written number. -/
def digitCount (number : Int) : Nat :=
  (toString number).length

theorem byteLength_toString (number : Int) :
    byteLength (toString number).toList = digitCount number := by
  rw [byteLength_of_plain (plain_toString number), digitCount,
    String.length_toList]

/-! ## The size of the statement -/

/--
What a bind adds to the 32 bytes of its punctuation and its time: a quote of
the name is written four times.
-/
def entryBytes (entry : BindEntry) : Nat :=
  byteLength entry.bindName + 3 * entry.bindName.count quote +
    digitCount entry.parentId + digitCount entry.resourceId

/-- The binds leave enough of 118 bytes for each of them. -/
def FitsBuffer (bindList : List BindEntry) : Prop :=
  (bindList.map entryBytes).sum ≤ 118 * bindList.length + 232

instance (bindList : List BindEntry) : Decidable (FitsBuffer bindList) :=
  inferInstanceAs (Decidable (_ ≤ _))

theorem byteLength_entryText (time : TimeText) (entry : BindEntry) :
    byteLength (entryText time (escapeName entry)) = entryBytes entry + 31 := by
  have timeBytes : byteLength time.text = 19 := by
    rw [byteLength_of_plain time.plain, time.length]
  have name : byteLength (dbmsEscape (escapeName entry).bindName) =
      byteLength entry.bindName + 3 * entry.bindName.count quote := by
    rw [byteLength_dbmsEscape]
    show byteLength (dbmsEscape entry.bindName) +
      (dbmsEscape entry.bindName).count quote = _
    rw [byteLength_dbmsEscape, count_dbmsEscape]
    omega
  have opened : byteLength ", '".toList = 3 := by decide
  have closed : byteLength "', ".toList = 3 := by decide
  have ends : byteLength "')".toList = 2 := by decide
  have bracket : Char.utf8Size '(' = 1 := by decide
  rw [entryText, byteLength_append, byteLength_append, byteLength_append,
    byteLength_append, byteLength_append, byteLength_append,
    byteLength_append, byteLength_cons, name, byteLength_toString,
    byteLength_toString, timeBytes, opened, closed, ends, bracket, entryBytes]
  show 1 + digitCount entry.parentId + 3 + _ + 3 +
    digitCount entry.resourceId + 3 + 19 + 2 = _
  omega

theorem byteLength_flatMap (time : TimeText) (entries : List BindEntry) :
    byteLength ((entries.map escapeName).flatMap fun entry =>
        ',' :: entryText time entry) =
      (entries.map entryBytes).sum + 32 * entries.length := by
  induction entries with
  | nil => rfl
  | cons entry entries induction =>
      have comma : Char.utf8Size ',' = 1 := by decide
      rw [List.map_cons, List.flatMap_cons, byteLength_append, induction,
        byteLength_cons, byteLength_entryText, comma, List.map_cons,
        List.sum_cons, List.length_cons]
      omega

/-- The bytes of the statement, with the one that terminates it. -/
theorem bytesUsed_eq (time : TimeText) (nonempty : entries ≠ []) :
    bytesUsed time entries =
      (entries.map entryBytes).sum + 32 * entries.length + 68 := by
  cases entries with
  | nil => exact (nonempty rfl).elim
  | cons first rest =>
      have head : byteLength insertIntoBinds = 68 := by decide
      show byteLength (_ ++ entryText time (escapeName first) ++ _) + 1 = _
      rw [byteLength_append, byteLength_append, head, byteLength_entryText,
        byteLength_flatMap, List.map_cons, List.sum_cons, List.length_cons]
      omega

/-- The text that is formatted fits the buffer iff the binds are short. -/
theorem bytesUsed_le_allocated_iff
    (time : TimeText) (bindList : List BindEntry)
    (nonempty : bindList ≠ []) :
    bytesUsed time bindList ≤ allocated bindList.length ↔
      FitsBuffer bindList := by
  rw [bytesUsed_eq time nonempty, allocated, FitsBuffer]
  omega

/-- The time of the root collection. -/
def rootTime : TimeText where
  text := rootUpdatedAt
  plain := SqlText.forall_mem_of_all (by decide)
  length := by decide

theorem bytesUsed_le_allocated_example :
    bytesUsed rootTime [⟨2, 7, "a'b".toList⟩] ≤ allocated 1 ↔
      FitsBuffer [⟨2, 7, "a'b".toList⟩] :=
  bytesUsed_le_allocated_iff rootTime [⟨2, 7, "a'b".toList⟩]
    (List.cons_ne_nil _ _)

/-- A single name of the greatest length is too long for the buffer. -/
theorem not_bytesUsed_le_allocated :
    ¬ ∀ (time : TimeText) (bindList : List BindEntry), bindList ≠ [] →
      (∀ entry ∈ bindList, entry.bindName.length ≤ maxNameLength) →
      bytesUsed time bindList ≤ allocated bindList.length := by
  intro bounded
  have long := bounded rootTime [⟨2, 7, List.replicate 767 'a'⟩]
    (List.cons_ne_nil _ _) (by decide +kernel)
  rw [bytesUsed_eq rootTime (List.cons_ne_nil _ _)] at long
  exact absurd long (by decide +kernel)

/-! ## The rows of the statements -/

def entryRow (time : TimeText) (entry : BindEntry) : List SqlValue :=
  [.number entry.parentId, .text entry.bindName, .number entry.resourceId,
    .text time.text]

theorem scans_blank : Scans false [' '] [] :=
  rfl

theorem dbmsEscape_time (time : TimeText) : dbmsEscape time.text = time.text :=
  dbmsEscape_eq_self fun member =>
    (IsPlain.small (time.plain quote member)).2.2.1 rfl

theorem entryText_eq (time : TimeText) (entry : BindEntry) :
    entryText time entry = '(' :: rowText false [' '] (entryRow time entry) := by
  show _ = '(' :: (_ ++ _ ++ _ ++ (_ ++ _ ++ _ ++ (_ ++ _ ++ _ ++ (_ ++ _))))
  simp only [valueText, ← dbmsEscape_eq_escape, dbmsEscape_time]
  simp [entryText]

/-- The bulk statement before the values of the first bind. -/
def bulkHead : Text :=
  "INSERT INTO binds(collection_id,name,resource_id,updated_at) VALUES (".toList

theorem queryStr_eq (time : TimeText) (nonempty : entries ≠ []) :
    queryStr time entries =
      bulkHead ++ rowsText false [' ']
        ((entries.map escapeName).map (entryRow time)) := by
  have texts : (fun entry => ',' :: entryText time entry) =
      fun entry => ',' :: '(' :: rowText false [' '] (entryRow time entry) := by
    funext entry
    rw [entryText_eq]
  cases entries with
  | nil => exact (nonempty rfl).elim
  | cons first rest =>
      have head : insertIntoBinds ++ ['('] = bulkHead := by decide
      rw [List.map_cons, List.map_cons, rowsText_cons, List.flatMap_map,
        ← head]
      show _ ++ entryText time (escapeName first) ++
        (rest.map escapeName).flatMap _ = _
      rw [texts, entryText_eq]
      simp only [List.append_assoc, List.cons_append, List.nil_append]

/-- The columns of the bulk statement. -/
def bulkColumns : List Text :=
  ["collection_id".toList, "name".toList, "resource_id".toList,
    "updated_at".toList]

theorem scans_bulkHead :
    Scans false bulkHead (headTokens "binds".toList bulkColumns) := by
  unfold Scans
  decide +kernel

/-- The values that a bind has in the database. -/
def entryValues (time : TimeText) (entry : BindEntry) : BindValues where
  name := entry.bindName
  collectionId := entry.parentId
  resourceId := entry.resourceId
  updatedAt := time.text

theorem executeText_queryStr
    (resources : ResourceTable) (binds : BindSequence) (time : TimeText)
    (nonempty : entries ≠ []) :
    executeText resources binds (queryStr time entries) =
      ((entries.map escapeName).map (entryValues time)).foldlM
        (insertRow resources) binds := by
  have read : parseInsert false (queryStr time entries) =
      some
        { table := "binds".toList
          columns := bulkColumns
          rows := (entries.map escapeName).map (entryRow time) } := by
    rw [queryStr_eq time nonempty]
    apply parseInsert_rowsText scans_blank scans_bulkHead
    · exact nofun
    · simpa using nonempty
    · intro row member
      rcases List.mem_map.mp member with ⟨entry, _, rfl⟩
      exact nofun
  have values : ((entries.map escapeName).map (entryRow time)).mapM
      (bindValues bulkColumns) =
        some ((entries.map escapeName).map (entryValues time)) := by
    rw [List.mapM_map]
    exact List.mapM_pure
  rw [executeText, read]
  simp only [if_true, values]

/-- The statement of a single insertion before its values. -/
def singleHead : Text :=
  "INSERT INTO binds(name, collection_id, resource_id, updated_at) VALUES("
    |>.toList

def singleColumns : List Text :=
  ["name".toList, "collection_id".toList, "resource_id".toList,
    "updated_at".toList]

theorem scans_singleHead :
    Scans false singleHead (headTokens "binds".toList singleColumns) := by
  unfold Scans
  decide +kernel

/-- The text of a single insertion. -/
theorem escquery_insertBindQuery
    (time : TimeText) (resourceId collectionId : Int) (bindname : Text) :
    escquery (insertBindQuery time resourceId collectionId bindname) =
      some (singleHead ++ rowsText false []
        [[.text bindname, .number collectionId, .number resourceId,
          .text time.text]]) := by
  have prepared : dbmsPrepare ("INSERT INTO binds(name, collection_id, " ++
      "resource_id, updated_at) VALUES(?,?,?,?)").toList =
        ⟨singleHead ++ "?,?,?,?)".toList, [none, none, none, none]⟩ := by
    decide +kernel
  have plain : '?' ∉ singleHead := by
    decide
  have text : substitute (singleHead ++ "?,?,?,?)".toList)
      [quote :: dbmsEscape bindname ++ [quote],
        (toString collectionId).toList, (toString resourceId).toList,
        quote :: dbmsEscape time.text ++ [quote]] =
      singleHead ++ rowsText false []
        [[.text bindname, .number collectionId, .number resourceId,
          .text time.text]] := by
    rw [substitute_append _ _ plain, dbmsEscape_eq_escape,
      dbmsEscape_eq_escape]
    simp [substitute, rowsText, rowText, valueText, quote]
  rw [← text, insertBindQuery, prepared]
  rfl

/-- A single insertion adds its row. -/
theorem dbmsInsertBind_eq
    (resources : ResourceTable) (binds : BindSequence) (time : TimeText)
    (resourceId collectionId : Int) (bindname : Text) :
    BindInsert.dbmsInsertBind resources binds time resourceId collectionId
        bindname =
      BridgeMkcol.dbmsInsertBind resources binds time.text resourceId
        collectionId bindname := by
  have read : parseInsert false (singleHead ++ rowsText false []
      [[.text bindname, .number collectionId, .number resourceId,
        .text time.text]]) =
      some
        { table := "binds".toList
          columns := singleColumns
          rows := [[.text bindname, .number collectionId, .number resourceId,
            .text time.text]] } := by
    have blank : Scans false [] [] := rfl
    apply parseInsert_rowsText blank scans_singleHead
    · exact nofun
    · exact nofun
    · intro row member
      rcases List.mem_singleton.mp member with rfl
      exact nofun
  rw [BindInsert.dbmsInsertBind, execute, escquery_insertBindQuery]
  show executeText resources binds _ = _
  rw [executeText, read]
  show ([entryValues time ⟨collectionId, resourceId, bindname⟩].foldlM
    (insertRow resources) binds) = _
  rw [List.foldlM_cons]
  exact bind_pure _

/-! ## What the schema accepts -/

def entryKey (entry : BindEntry) : Id × Text :=
  (entry.parentId, entry.bindName)

/-- The columns of a row that the two functions are to agree about. -/
def entryTriple (entry : BindEntry) : Id × Text × Id :=
  (entry.parentId, entry.bindName, entry.resourceId)

def bindTriple (bind : Bind) : Id × Text × Id :=
  (bind.collectionId, bind.name, bind.resourceId)

/-- A name that is not too long, and resources that exist. -/
def FitsColumns (resources : ResourceTable) (entry : BindEntry) : Prop :=
  entry.bindName.length ≤ maxNameLength ∧
    entry.resourceId ∈ resources.rows.map ResourceRow.id ∧
    entry.parentId ∈ resources.rows.map ResourceRow.id

instance (resources : ResourceTable) (entry : BindEntry) :
    Decidable (FitsColumns resources entry) :=
  inferInstanceAs (Decidable (_ ∧ _))

/-- The rows fit their columns, and their keys differ. -/
def Accepted (resources : ResourceTable) (binds : BindSequence)
    (entries : List BindEntry) : Prop :=
  (∀ entry ∈ entries, FitsColumns resources entry) ∧
    (binds.rows.map Bind.key ++ entries.map entryKey).Nodup

instance (resources : ResourceTable) (binds : BindSequence)
    (entries : List BindEntry) :
    Decidable (Accepted resources binds entries) :=
  inferInstanceAs (Decidable (_ ∧ _))

variable {resources : ResourceTable} {binds : BindSequence}

theorem insertRow_of_fits
    (time : TimeText)
    (fits : FitsColumns resources entry)
    (fresh : entryKey entry ∉ binds.rows.map Bind.key) :
    ∃ next, insertRow resources binds (entryValues time entry) = .ok next ∧
      next.rows.map bindTriple =
        binds.rows.map bindTriple ++ [entryTriple entry] ∧
      next.rows.map Bind.key = binds.rows.map Bind.key ++ [entryKey entry] := by
  rcases fits with ⟨short, resource, collection⟩
  rw [insertRow, BridgeMkcol.dbmsInsertBind,
    dif_pos ⟨fresh, resource, collection, short⟩]
  exact ⟨_, rfl, List.map_append, List.map_append⟩

theorem insertRow_of_unfit
    (unfit : ¬ (FitsColumns resources entry ∧
      entryKey entry ∉ binds.rows.map Bind.key)) :
    insertRow resources binds (entryValues time entry) =
      .error insertFailed := by
  rw [insertRow, BridgeMkcol.dbmsInsertBind, dif_neg]
  · rfl
  · rintro ⟨fresh, resource, collection, short⟩
    exact unfit ⟨⟨short, resource, collection⟩, fresh⟩

theorem accepted_cons :
    Accepted resources binds (entry :: entries) ↔
      (FitsColumns resources entry ∧
        entryKey entry ∉ binds.rows.map Bind.key) ∧
      (∀ other ∈ entries, FitsColumns resources other) ∧
      (binds.rows.map Bind.key ++ [entryKey entry] ++
        entries.map entryKey).Nodup := by
  rw [Accepted, List.forall_mem_cons, List.map_cons, List.append_assoc,
    List.singleton_append]
  constructor
  · rintro ⟨⟨fits, others⟩, distinct⟩
    refine ⟨⟨fits, ?_⟩, others, distinct⟩
    intro member
    exact (List.nodup_append.mp distinct).2.2 _ member (entryKey entry)
      List.mem_cons_self rfl
  · rintro ⟨⟨fits, _⟩, others, distinct⟩
    exact ⟨⟨fits, others⟩, distinct⟩

/-- All rows are inserted if they are accepted, else there is an error. -/
def Inserts (resources : ResourceTable) (binds : BindSequence)
    (entries : List BindEntry) (outcome : Except DavError BindSequence) :
    Prop :=
  (Accepted resources binds entries ∧
    ∃ result, outcome = .ok result ∧
      result.rows.map bindTriple =
        binds.rows.map bindTriple ++ entries.map entryTriple) ∨
  (¬ Accepted resources binds entries ∧
    ∃ failure, outcome = .error failure)

theorem inserts_foldlM (calls : List (TimeText × BindEntry)) :
    Inserts resources binds (calls.map Prod.snd)
      ((calls.map fun call => entryValues call.1 call.2).foldlM
        (insertRow resources) binds) := by
  induction calls generalizing binds with
  | nil =>
      refine Or.inl ⟨⟨nofun, ?_⟩, binds, rfl, (List.append_nil _).symm⟩
      simpa using binds.collectionIdKey
  | cons call calls induction =>
      rcases call with ⟨time, entry⟩
      rw [List.map_cons, List.map_cons, List.foldlM_cons, Inserts,
        accepted_cons]
      by_cases fits : FitsColumns resources entry ∧
          entryKey entry ∉ binds.rows.map Bind.key
      · rcases insertRow_of_fits time fits.1 fits.2 with
          ⟨next, inserted, triples, keys⟩
        rw [inserted, ← keys]
        rcases @induction next with
          ⟨accepted, result, run, rows⟩ | ⟨refused, failure, run⟩
        · refine Or.inl ⟨⟨fits, accepted⟩, result, run, ?_⟩
          rw [rows, triples, List.append_assoc]
          rfl
        · exact Or.inr ⟨fun both => refused both.2, failure, run⟩
      · rw [insertRow_of_unfit fits]
        exact Or.inr ⟨fun both => fits both.1, insertFailed, rfl⟩

/-- The case that all rows have one time. -/
theorem inserts_map (time : TimeText) (entries : List BindEntry) :
    Inserts resources binds entries
      ((entries.map (entryValues time)).foldlM (insertRow resources) binds) := by
  have calls : Inserts resources binds
      ((entries.map fun entry => (time, entry)).map Prod.snd) _ :=
    inserts_foldlM (entries.map fun entry => (time, entry))
  rw [List.map_map, List.map_map] at calls
  have same : entries.map (Prod.snd ∘ fun entry => (time, entry)) = entries :=
    List.map_id entries
  rw [same] at calls
  exact calls

/-! ## The two ways of inserting binds -/

theorem insertSingly_eq
    {calls : List (TimeText × BindEntry)}
    (ids : ∀ call ∈ calls,
      IsInteger call.2.parentId ∧ IsInteger call.2.resourceId) :
    insertSingly resources binds calls =
      (calls.map fun call => entryValues call.1 call.2).foldlM
        (insertRow resources) binds := by
  induction calls generalizing binds with
  | nil => rfl
  | cons call calls induction =>
      rw [List.forall_mem_cons] at ids
      have step : BindInsert.dbmsInsertBind resources binds call.1
          (toInt call.2.resourceId) (toInt call.2.parentId) call.2.bindName =
            insertRow resources binds (entryValues call.1 call.2) := by
        rw [dbmsInsertBind_eq, toInt_eq_self ids.1.1, toInt_eq_self ids.1.2]
        rfl
      rw [insertSingly, List.foldlM_cons, List.map_cons, List.foldlM_cons,
        step]
      cases insertRow resources binds (entryValues call.1 call.2) with
      | error failure => rfl
      | ok next => exact induction ids.2

theorem mem_entryText :
    '?' ∈ entryText time entry ↔ '?' ∈ entry.bindName := by
  have number : ∀ number : Int, '?' ∉ (toString number).toList :=
    fun number member => (plain_toString number _ member).small.2.2.2 rfl
  have time : '?' ∉ time.text :=
    fun member => (IsPlain.small (time.plain _ member)).2.2.2 rfl
  simp only [entryText, List.mem_append, List.mem_cons, number, time,
    mem_dbmsEscape]
  simp

/-- The statement has a placeholder iff a name holds a question mark. -/
theorem mem_queryStr :
    '?' ∈ queryStr time entries ↔
      ∃ entry ∈ entries, '?' ∈ entry.bindName := by
  cases entries with
  | nil => simp [queryStr]
  | cons first rest =>
      have head : '?' ∉ insertIntoBinds := by decide +kernel
      have text : queryStr time (first :: rest) =
          insertIntoBinds ++ entryText time (escapeName first) ++
            (rest.map escapeName).flatMap fun entry =>
              ',' :: entryText time entry :=
        rfl
      rw [text]
      simp [head, mem_entryText, mem_dbmsEscape, escapeName]

/-- The length of the names of some rows. -/
def nameLengths (triples : List (Id × Text × Id)) : Nat :=
  (triples.map fun triple => triple.2.1.length).sum

theorem nameLengths_escapeName (entries : List BindEntry) :
    nameLengths ((entries.map escapeName).map entryTriple) =
      nameLengths (entries.map entryTriple) +
        (entries.map fun entry => entry.bindName.count quote).sum := by
  induction entries with
  | nil => rfl
  | cons entry entries induction =>
      have length := length_dbmsEscape entry.bindName
      simp only [nameLengths, List.map_cons, List.sum_cons] at induction ⊢
      rw [induction]
      show (dbmsEscape entry.bindName).length + _ =
        entry.bindName.length + _ + _
      omega

/-- Escaped names are other names, unless there is nothing to escape. -/
theorem not_perm_escapeName
    (same : ((entries.map escapeName).map entryTriple).Perm
      (entries.map entryTriple)) :
    ∀ entry ∈ entries, quote ∉ entry.bindName := by
  have lengths : nameLengths ((entries.map escapeName).map entryTriple) =
      nameLengths (entries.map entryTriple) :=
    (same.map _).sum_nat
  rw [nameLengths_escapeName] at lengths
  intro entry member
  have total : (entries.map fun entry => entry.bindName.count quote).sum =
      0 := by
    omega
  rw [List.sum_eq_zero_iff_forall_eq_nat] at total
  exact List.count_eq_zero.mp (total _ (List.mem_map_of_mem member))

theorem map_escapeName_eq_self
    (plain : ∀ entry ∈ entries, quote ∉ entry.bindName) :
    entries.map escapeName = entries := by
  rw [← List.map_id entries, List.map_map]
  apply List.map_congr_left
  intro entry member
  show escapeName entry = entry
  rw [escapeName, dbmsEscape_eq_self (plain entry member)]

/-! ## The bulk call -/

theorem dbmsInsertBindList_overflow
    (nonempty : entries ≠ [])
    (long : ¬ FitsBuffer entries) :
    dbmsInsertBindList resources binds time entries = .error .overflow := by
  have exceeds : allocated entries.length < bytesUsed time entries := by
    rw [bytesUsed_eq time nonempty, allocated]
    unfold FitsBuffer at long
    omega
  rw [dbmsInsertBindList, if_neg (mt List.length_eq_zero_iff.mp nonempty),
    if_pos exceeds]

/-- What fits the buffer is executed, unless it has a placeholder. -/
theorem dbmsInsertBindList_of_fits
    (nonempty : entries ≠ [])
    (fits : FitsBuffer entries) :
    dbmsInsertBindList resources binds time entries =
      if ∃ entry ∈ entries, '?' ∈ entry.bindName then .ok binds
      else
        (((entries.map escapeName).map (entryValues time)).foldlM
          (insertRow resources) binds).mapError BindInsert.Stop.davError := by
  have inside : ¬ allocated entries.length < bytesUsed time entries := by
    rw [bytesUsed_eq time nonempty, allocated]
    unfold FitsBuffer at fits
    omega
  rw [dbmsInsertBindList, if_neg (mt List.length_eq_zero_iff.mp nonempty),
    if_neg inside, execute, escquery_dbmsPrepare]
  by_cases marked : '?' ∈ queryStr time entries
  · rw [if_pos marked, if_pos (mem_queryStr.mp marked)]
    rfl
  · rw [if_neg marked, if_neg (mt mem_queryStr.mpr marked),
      ← executeText_queryStr resources binds time nonempty]

/--
Both ways succeed and leave the same binds, or both fail; a buffer that
overflows is no way to succeed.
-/
inductive Agrees :
    Except BindInsert.Stop BindSequence → Except DavError BindSequence → Prop
  | succeed {first second : BindSequence}
      (same : (first.rows.map bindTriple).Perm (second.rows.map bindTriple)) :
      Agrees (.ok first) (.ok second)
  | fail {error other : DavError} :
      Agrees (.error (.davError error)) (.error other)

variable {bulk single : Except DavError BindSequence}

/-- A statement that is not sent leaves out what single insertions do. -/
theorem not_agrees_unsent
    (nonempty : entries ≠ [])
    (singly : Inserts resources binds entries single) :
    ¬ Agrees (.ok binds) single := by
  intro agrees
  rcases singly with ⟨_, result, rfl, rows⟩ | ⟨_, failure, rfl⟩
  · cases agrees with
    | succeed same =>
        have lengths := same.length_eq
        rw [rows, List.length_append, List.length_map, List.length_map]
          at lengths
        have positive := List.length_pos_iff.mpr nonempty
        omega
  · cases agrees

/-- Insertions with escaped names agree with those of the names. -/
theorem agrees_mapError_iff
    (escaped : Inserts resources binds (entries.map escapeName) bulk)
    (singly : Inserts resources binds entries single) :
    Agrees (bulk.mapError BindInsert.Stop.davError) single ↔
      (∀ entry ∈ entries, quote ∉ entry.bindName) ∨
        ¬ Accepted resources binds entries ∧
          ¬ Accepted resources binds (entries.map escapeName) := by
  have plain : (∀ entry ∈ entries, quote ∉ entry.bindName) →
      (Accepted resources binds (entries.map escapeName) ↔
        Accepted resources binds entries) := by
    intro unquoted
    rw [map_escapeName_eq_self unquoted]
  rcases escaped with
    ⟨acceptedBulk, first, rfl, firstRows⟩ | ⟨refusedBulk, failure, rfl⟩
  · rcases singly with
      ⟨accepted, second, rfl, secondRows⟩ | ⟨refused, failure, rfl⟩
    · constructor
      · intro agrees
        cases agrees with
        | succeed same =>
            rw [firstRows, secondRows, List.perm_append_left_iff] at same
            exact Or.inl (not_perm_escapeName same)
      · rintro (unquoted | ⟨refused, _⟩)
        · apply Agrees.succeed
          rw [firstRows, secondRows, map_escapeName_eq_self unquoted]
        · exact (refused accepted).elim
    · constructor
      · exact nofun
      · rintro (unquoted | ⟨_, refusedBulk⟩)
        · exact (refused ((plain unquoted).mp acceptedBulk)).elim
        · exact (refusedBulk acceptedBulk).elim
  · rcases singly with
      ⟨accepted, second, rfl, secondRows⟩ | ⟨refused, failure, rfl⟩
    · constructor
      · exact nofun
      · rintro (unquoted | ⟨refused, _⟩)
        · exact (refusedBulk ((plain unquoted).mpr accepted)).elim
        · exact (refused accepted).elim
    · exact ⟨fun _ => Or.inr ⟨refused, refusedBulk⟩, fun _ => Agrees.fail⟩

/-- The condition under which both ways agree. -/
def BulkWorks (resources : ResourceTable) (binds : BindSequence)
    (entries : List BindEntry) : Prop :=
  FitsBuffer entries ∧
    (∀ entry ∈ entries, '?' ∉ entry.bindName) ∧
    ((∀ entry ∈ entries, quote ∉ entry.bindName) ∨
      ¬ Accepted resources binds entries ∧
        ¬ Accepted resources binds (entries.map escapeName))

/--
The bulk insertion does what single insertions do iff its text fits the
buffer, no name has a question mark, and no name has a quote unless the
schema refuses the binds both as they are and with their quotes doubled.
-/
theorem dbmsInsertBindList_agrees_iff
    (resources : ResourceTable) (binds : BindSequence) (updatedAt : TimeText)
    (calls : List (TimeText × BindEntry))
    (nonempty : calls ≠ [])
    (ids : ∀ call ∈ calls,
      IsInteger call.2.parentId ∧ IsInteger call.2.resourceId) :
    Agrees
        (dbmsInsertBindList resources binds updatedAt (calls.map Prod.snd))
        (insertSingly resources binds calls) ↔
      BulkWorks resources binds (calls.map Prod.snd) := by
  have filled : calls.map Prod.snd ≠ [] := by
    simpa using nonempty
  have singly : Inserts resources binds (calls.map Prod.snd)
      (insertSingly resources binds calls) := by
    rw [insertSingly_eq ids]
    exact inserts_foldlM calls
  generalize calls.map Prod.snd = entries at filled singly ⊢
  by_cases fits : FitsBuffer entries
  · rw [dbmsInsertBindList_of_fits filled fits]
    by_cases marked : ∃ entry ∈ entries, '?' ∈ entry.bindName
    · rw [if_pos marked]
      constructor
      · intro agrees
        exact (not_agrees_unsent filled singly agrees).elim
      · rintro ⟨_, unmarked, _⟩
        rcases marked with ⟨entry, member, mark⟩
        exact (unmarked entry member mark).elim
    · have unmarked : ∀ entry ∈ entries, '?' ∉ entry.bindName :=
        fun entry member mark => marked ⟨entry, member, mark⟩
      rw [if_neg marked, agrees_mapError_iff (inserts_map updatedAt _) singly]
      exact ⟨fun same => ⟨fits, unmarked, same⟩, fun works => works.2.2⟩
  · rw [dbmsInsertBindList_overflow filled fits]
    exact ⟨nofun, fun works => (fits works.1).elim⟩

/-- A table of one collection. -/
def oneResource : ResourceTable where
  rows := [⟨2, .collection, none⟩]
  nextId := 3
  nextIdPos := three_pos
  ids := by decide
  pkey := by decide

def noBinds : BindSequence where
  rows := []
  nextId := 1
  nextIdPos := by decide
  ids := nofun
  pkey := List.nodup_nil
  collectionIdKey := List.nodup_nil
  positive := nofun

/-- A bind with a question mark in its name. -/
def markedCall : List (TimeText × BindEntry) :=
  [(rootTime, ⟨2, 2, "what?".toList⟩)]

theorem dbmsInsertBindList_agrees_example :
    Agrees
        (dbmsInsertBindList oneResource noBinds rootTime
          (markedCall.map Prod.snd))
        (insertSingly oneResource noBinds markedCall) ↔
      BulkWorks oneResource noBinds (markedCall.map Prod.snd) :=
  dbmsInsertBindList_agrees_iff oneResource noBinds rootTime markedCall
    (List.cons_ne_nil _ _) (by decide)

/-- The bulk insertion of a name with a question mark inserts nothing. -/
theorem not_dbmsInsertBindList_agrees :
    ¬ ∀ (resources : ResourceTable) (binds : BindSequence)
        (updatedAt : TimeText) (calls : List (TimeText × BindEntry)),
      calls ≠ [] → Accepted resources binds (calls.map Prod.snd) →
      Agrees
        (dbmsInsertBindList resources binds updatedAt (calls.map Prod.snd))
        (insertSingly resources binds calls) := by
  intro agrees
  have filled : markedCall.map Prod.snd ≠ [] := List.cons_ne_nil _ _
  have accepted : Accepted oneResource noBinds (markedCall.map Prod.snd) := by
    decide
  have marked : ∃ entry ∈ markedCall.map Prod.snd, '?' ∈ entry.bindName := by
    decide
  have singly : Inserts oneResource noBinds (markedCall.map Prod.snd)
      (insertSingly oneResource noBinds markedCall) := by
    have ids : ∀ call ∈ markedCall,
        IsInteger call.2.parentId ∧ IsInteger call.2.resourceId := by
      decide
    rw [insertSingly_eq ids]
    exact inserts_foldlM markedCall
  have unsent : dbmsInsertBindList oneResource noBinds rootTime
      (markedCall.map Prod.snd) = .ok noBinds := by
    rw [dbmsInsertBindList_of_fits filled (by decide), if_pos marked]
  apply not_agrees_unsent filled singly
  rw [← unsent]
  apply agrees
  · exact List.cons_ne_nil _ _
  · exact accepted

end Limestone.BulkBinds
