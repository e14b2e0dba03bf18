import Limestone.Library.Attempt
import Limestone.Library.Files
import Limestone.MediumUncheckout
import Mathlib.Data.UInt

/-!
# PUT of a part of a body: `dav_repos_seek_stream`

A body is written to a temporary file, and its hash names the file that it is
moved to in the end.  For a part of a body the temporary file is a copy of what
is stored, and the stream is moved to the start of the part.

The files are those of a server that can open, copy and move them.  Where the
code looks at an error, the step may fail.
-/

namespace Limestone.PartialPut

open Library
open BridgeMkcol (Stop)
open BridgeProperty (DavReposResource MediaRow ResourceRow)
open CopyMedium
open MediumUncheckout (dbmsSetProperty)

/-! ## Files and streams -/

/-- The files in `tmp_dir` and in `file_dir`. -/
inductive FilePath where
  | temporary (uuid : Option Text)
  | body (sha1str : Text)
deriving DecidableEq

/-- The tables, the files, and the note `put_stream_done` of the request. -/
structure PutState where
  store : ContentStore
  files : Files FilePath UInt8
  putStreamDone : Option FilePath

/-- A part of a request, which keeps what it has done when it fails. -/
abbrev PutAttempt := Attempt Stop PutState

/-- The steps that may fail for a reason of their own. -/
inductive PutStep where
  | openFile
  | seek
  | write (position : Nat)
  | close
  | setProperty
  | updateMedia
  | notify
deriving DecidableEq

/-- `dav_stream_mode`. -/
inductive DavStreamMode where
  | writeTrunc
  | writeSeekable
deriving DecidableEq

/-- `dav_stream`, with the position in its file. -/
structure DavStream where
  dbR : DavReposResource
  inserted : Bool
  path : FilePath
  position : Nat

/-- A request, and what the server has to do with it. -/
structure PutServer where
  request : Request
  /-- `resource->uri`. -/
  uri : Text
  /-- The header `Content-Type`. -/
  contentType : Option Text
  /-- The digits of `apr_sha1`. -/
  sha1 : List UInt8 → Text
  /-- `get_mime_type`, by the extension or by the bytes. -/
  getMimeType : Option Text → List UInt8 → Option Text
  /-- `sabridge_insert_resource`, with the delay of the ACL. -/
  insertResource : Bool → ContentStore → DavReposResource →
    Except Stop (ContentStore × DavReposResource)
  /-- `sabridge_delete_resource`. -/
  deleteResource : ContentStore → DavReposResource → ContentStore
  /-- `dav_repos_put_user`, with the bytes of the document. -/
  putUser : Bool → ContentStore → DavReposResource → List UInt8 →
    Except Stop ContentStore

/-- An error of the stream functions. -/
def serverError (desc : String) : Stop :=
  .davError ⟨httpInternalServerError, desc⟩

section Functions

variable (server : PutServer) (fails : PutStep → Bool)

/-- A step that may fail. -/
def check (step : PutStep) (desc : String) : PutAttempt Unit :=
  if fails step then throw (serverError desc) else pure ()

/-- A change of the files. -/
def changeFiles
    (change : Files FilePath UInt8 → Files FilePath UInt8) :
    PutAttempt Unit := do
  let state ← get
  set { state with files := change state.files }

/-- The bytes of a file. -/
def readFile (path : FilePath) : PutAttempt (List UInt8) := do
  let state ← get
  return (state.files path).getD []

/-! ## Opening -/

def userPath : Text :=
  "/users".toList

def groupPath : Text :=
  "/groups".toList

/-- The type of a new resource. -/
def newResourcetype (uri : Text) : ResourceType :=
  if userPath.isPrefixOf uri then .user
  else if groupPath.isPrefixOf uri then .group
  else .resource

/-- `sabridge_get_new_file`. -/
def sabridgeGetNewFile (dbR : DavReposResource) : PutAttempt FilePath := do
  changeFiles fun files => files.set (.temporary dbR.uuid) []
  return .temporary dbR.uuid

/-- `sabridge_get_resource_file`. -/
def sabridgeGetResourceFile (dbR : DavReposResource) :
    PutAttempt FilePath := do
  match dbR.sha1str with
  | none => throw .nullDereference
  | some sha1str =>
      changeFiles fun files =>
        files.copy (.body sha1str) (.temporary dbR.uuid)
      return .temporary dbR.uuid

/-- `apr_file_open` for writing; the file is not created. -/
def aprFileOpen (path : FilePath) : PutAttempt Unit := do
  let state ← get
  check fails .openFile "Unable to open file for write"
  match state.files path with
  | none => throw (serverError "Unable to open file for write")
  | some _ => return ()

/-- The resource of the stream, which is inserted if it is new. -/
def insertNew (dbR : DavReposResource) :
    PutAttempt (DavReposResource × Bool) := do
  if dbR.serialno = 0 then
    let state ← get
    let type := newResourcetype server.uri
    let (store, dbR) ← Attempt.lift (server.insertResource
      (type == .user) state.store { dbR with resourcetype := some type })
    set { state with store := store }
    return (dbR, true)
  else return (dbR, false)

/-- `dav_repos_open_stream`. -/
def davReposOpenStream (mode : DavStreamMode) (dbR : DavReposResource) :
    PutAttempt DavStream := do
  let (dbR, inserted) ← insertNew server dbR
  let state ← get
  match state.putStreamDone with
  | some path => return ⟨dbR, inserted, path, 0⟩
  | none =>
      let path ←
        (match mode with
        | .writeTrunc => sabridgeGetNewFile dbR
        | .writeSeekable => sabridgeGetResourceFile dbR)
      aprFileOpen fails path
      return ⟨dbR, inserted, path, 0⟩

/-! ## Seeking and writing -/

/--
`apr_file_seek` with `APR_SET`: the new position, if the system takes it.  A
position before the start of the file is refused.
-/
def aprFileSeek (p : Int) : Option Nat :=
  if p < 0 then none else some p.toNat

/--
`dav_repos_seek_stream`.  The position that is asked for is not passed on: the
stream goes to what `p` holds, which has not been set.
-/
def davReposSeekStream (p : Int) (stream : DavStream) (absPos : Nat) :
    PutAttempt DavStream := do
  let state ← get
  match state.putStreamDone with
  | some _ => return stream
  | none =>
      check fails .seek "Unable to seek in file."
      match aprFileSeek p with
      | none => throw (serverError "Unable to seek in file.")
      | some position =>
          if position ≠ absPos then
            throw (serverError "Seek resulted in different position.")
          else return { stream with position := position }

/-- `dav_repos_write_stream`. -/
def davReposWriteStream (stream : DavStream) (buf : List UInt8) :
    PutAttempt DavStream := do
  let state ← get
  match state.putStreamDone with
  | some _ => return stream
  | none =>
      check fails (.write stream.position) "Unable to write to file."
      changeFiles fun files => files.set stream.path
        (Files.overwrite ((files stream.path).getD []) stream.position buf)
      return { stream with position := stream.position + buf.length }

/-! ## Closing -/

def multipartFormData : Text :=
  "multipart/form-data".toList

/-- `is_content_type_good`. -/
def isContentTypeGood : Option Text → Bool
  | none => false
  | some contentType =>
      !contentType.isEmpty && !multipartFormData.isPrefixOf contentType

/-- `sabridge_put_resource_file`. -/
def sabridgePutResourceFile (sha1str : Text) (path : FilePath) :
    PutAttempt Unit := do
  let state ← get
  set { state with
    store := MediumUncheckout.sabridgePutResourceFile state.store sha1str
    files := state.files.rename path (.body sha1str) }

/-- The file of the stream is closed, once in a request. -/
def closeFile (stream : DavStream) : PutAttempt Unit := do
  let state ← get
  if state.putStreamDone = none then
    check fails .close "Couldn't close stream file"
    set { state with putStreamDone := some stream.path }

/-- A lock-null resource becomes a resource with an empty body. -/
def fillLockNull (dbR : DavReposResource) :
    PutAttempt DavReposResource := do
  if dbR.resourcetype = some .lockNull then
    let state ← get
    let (store, dbR) ← Attempt.lift
      (sabridgeCreateEmptyBody server.request state.store dbR)
    set { state with
      store := store
      files :=
        match state.files (.body emptySha1) with
        | some _ => state.files
        | none => state.files.set (.body emptySha1) [] }
    return { dbR with resourcetype := some .resource }
  else return dbR

/-- The record with what the file is. -/
def withFile (dbR : DavReposResource) (bytes : List UInt8) :
    DavReposResource :=
  { dbR with
    getcontenttype :=
      if isContentTypeGood server.contentType then server.contentType
      else server.getMimeType dbR.uri bytes
    sha1str := some (server.sha1 bytes)
    getcontentlength := bytes.length }

/-- The rows of a resource with a body. -/
def storeRows (dbR : DavReposResource) : PutAttempt Unit := do
  let state ← get
  check fails .setProperty "Couldn't set live props"
  let store ← Attempt.lift (dbmsSetProperty state.store dbR)
  set { state with store := store }
  -- after a statement that fails the tables are not seen again
  check fails .updateMedia "Couldn't update media entry"
  check fails .notify "DBMS error while updating lastmodified"
  let (store, _) ← Attempt.lift
    (dbmsUpdateMediaProps server.request store dbR)
  set { state with store := store }

/-- The body of the stream is stored. -/
def storeBody (stream : DavStream) (dbR : DavReposResource) :
    PutAttempt Unit := do
  let bytes ← readFile stream.path
  storeRows server fails (withFile server dbR bytes)
  sabridgePutResourceFile (server.sha1 bytes) stream.path

/-- What a user resource stores of the stream. -/
def storeUser (stream : DavStream) (dbR : DavReposResource) :
    PutAttempt Unit := do
  let bytes ← readFile stream.path
  let state ← get
  let store ← Attempt.lift
    (server.putUser stream.inserted state.store dbR bytes)
  set { state with store := store }

/-- The stream is stored as the type of the resource has it. -/
def storeStream (stream : DavStream) (dbR : DavReposResource) :
    PutAttempt Unit :=
  if dbR.resourcetype = some .resource ∨
      dbR.resourcetype = some .versioned then
    storeBody server fails stream dbR
  else if dbR.resourcetype = some .user then storeUser server stream dbR
  else pure ()

/-- `dav_repos_close_stream`. -/
def davReposCloseStream (stream : DavStream) (commit : Bool) :
    PutAttempt Unit := do
  closeFile fails stream
  if commit then
    let dbR ← fillLockNull server stream.dbR
    storeStream server fails stream dbR
    changeFiles fun files => files.remove stream.path
  else if stream.inserted then
    let state ← get
    set { state with store := server.deleteResource state.store stream.dbR }

/-! ## The request -/

/-- What is done with an open stream before it is closed. -/
def writePart (p : Int) (stream : DavStream) (offset : Nat)
    (chunks : List (List UInt8)) : PutAttempt DavStream := do
  let stream ← davReposSeekStream fails p stream offset
  chunks.foldlM (davReposWriteStream fails) stream

/-- A stream with which something has failed is closed without commit. -/
def abortStream (stream : DavStream) (err : Stop) : PutAttempt DavStream := do
  davReposCloseStream server fails stream false
  throw err

/-- The stream is closed with commit if nothing has failed. -/
def putPart (p : Int) (dbR : DavReposResource) (offset : Nat)
    (chunks : List (List UInt8)) : PutAttempt Unit := do
  let stream ← davReposOpenStream server fails .writeSeekable dbR
  let written ← tryCatch (writePart fails p stream offset chunks)
    (abortStream server fails stream)
  davReposCloseStream server fails written true

/-- PUT of a part; the transaction takes the tables back after an error. -/
def partialPut (p : Int) (state : PutState) (dbR : DavReposResource)
    (offset : Nat) (chunks : List (List UInt8)) : PutState × Option Stop :=
  match (putPart server fails p dbR offset chunks).outcome state with
  | (.ok _, after) => (after, none)
  | (.error err, after) => ({ after with store := state.store }, some err)

end Functions

/-! ## Bodies that stay -/

/-- The bodies are those of the files. -/
def HasBodies (files : Files FilePath UInt8) (state : PutState) : Prop :=
  ∀ sha1str, state.files (.body sha1str) = files (.body sha1str)

/-- The stream writes to a temporary file, and the bodies are untouched. -/
structure IsWriting (files : Files FilePath UInt8) (dbR : DavReposResource)
    (stream : DavStream) (state : PutState) : Prop where
  bodies : HasBodies files state
  path : ∃ uuid, stream.path = .temporary uuid
  dbR : stream.dbR = dbR
  inserted : stream.inserted = false

section Bodies

variable {server : PutServer} {fails : PutStep → Bool}
  {files : Files FilePath UInt8} {dbR : DavReposResource}
  {stream : DavStream} {offset : Nat} {p : Int} {step : PutStep}
  {desc : String} {uuid : Option Text}

theorem HasBodies.of_files
    {state after : PutState} (bodies : HasBodies files state)
    (same : after.files = state.files) : HasBodies files after := by
  intro sha1str
  rw [same]
  exact bodies sha1str

theorem check_keeps {before : PutState → Prop} :
    Attempt.Satisfies before (check fails step desc) (fun _ => before)
      before := by
  unfold check
  split
  · exact Attempt.Satisfies.throw fun _ holds => holds
  · exact Attempt.Satisfies.pure fun _ holds => holds

/-- A change of temporary files. -/
theorem changeFiles_keeps
    {change : Files FilePath UInt8 → Files FilePath UInt8}
    {failed : PutState → Prop}
    (kept : ∀ files sha1str,
      change files (.body sha1str) = files (.body sha1str)) :
    Attempt.Satisfies (HasBodies files) (changeFiles change)
      (fun _ => HasBodies files) failed := by
  intro state bodies sha1str
  exact (kept state.files sha1str).trans (bodies sha1str)

theorem set_temporary_body
    {content : List UInt8} {sha1str : Text} :
    files.set (.temporary uuid) content (.body sha1str) =
      files (.body sha1str) :=
  Files.set_of_ne (by intro same; cases same)

theorem copy_temporary_body
    {source : FilePath} {sha1str : Text} :
    files.copy source (.temporary uuid) (.body sha1str) =
      files (.body sha1str) := by
  cases found : files source with
  | none => rw [Files.copy, found]
  | some content =>
      rw [Files.copy_eq found]
      exact set_temporary_body

theorem sabridgeGetResourceFile_keeps :
    Attempt.Satisfies (HasBodies files) (sabridgeGetResourceFile dbR)
      (fun path state => HasBodies files state ∧
        ∃ uuid, path = .temporary uuid)
      (HasBodies files) := by
  unfold sabridgeGetResourceFile
  split
  · exact Attempt.Satisfies.throw fun _ bodies => bodies
  · apply Attempt.Satisfies.bind
    · exact changeFiles_keeps fun _ _ => copy_temporary_body
    · intro _
      exact Attempt.Satisfies.pure fun _ bodies => ⟨bodies, _, rfl⟩

theorem aprFileOpen_keeps {before : PutState → Prop} {path : FilePath} :
    Attempt.Satisfies before (aprFileOpen fails path) (fun _ => before)
      before := by
  unfold aprFileOpen
  apply Attempt.Satisfies.get_bind
  intro state holds
  apply Attempt.Satisfies.bind
  · exact check_keeps.weaken fun current same => same ▸ holds
  · intro _
    split
    · exact Attempt.Satisfies.throw fun _ holds => holds
    · exact Attempt.Satisfies.pure fun _ holds => holds

theorem insertNew_of_listed (listed : dbR.serialno ≠ 0) :
    insertNew server dbR = pure (dbR, false) :=
  if_neg listed

theorem davReposOpenStream_keeps (listed : dbR.serialno ≠ 0) :
    Attempt.Satisfies
      (fun state => HasBodies files state ∧ state.putStreamDone = none)
      (davReposOpenStream server fails .writeSeekable dbR)
      (IsWriting files dbR) (HasBodies files) := by
  unfold davReposOpenStream
  rw [insertNew_of_listed listed, pure_bind]
  apply Attempt.Satisfies.get_bind
  rintro state ⟨bodies, undone⟩
  simp only [undone]
  apply Attempt.Satisfies.bind
  · exact sabridgeGetResourceFile_keeps.weaken fun current same =>
      same ▸ bodies
  · intro path state opened
    rcases opened with ⟨bodies, isTemporary⟩
    have tried := @aprFileOpen_keeps fails (HasBodies files) path
    revert bodies
    apply tried.bind
    intro _
    exact Attempt.Satisfies.pure fun _ bodies =>
      ⟨bodies, isTemporary, rfl, rfl⟩

theorem davReposSeekStream_keeps :
    Attempt.Satisfies (IsWriting files dbR stream)
      (davReposSeekStream fails p stream offset) (IsWriting files dbR)
      (HasBodies files) := by
  unfold davReposSeekStream
  apply Attempt.Satisfies.get_bind
  intro state writing
  split
  · exact Attempt.Satisfies.pure fun _ same => same ▸ writing
  · apply Attempt.Satisfies.bind
    · exact check_keeps.weaken fun _ same => same ▸ writing.bodies
    · intro _
      split
      · exact Attempt.Satisfies.throw fun _ bodies => bodies
      · split
        · exact Attempt.Satisfies.throw fun _ bodies => bodies
        · exact Attempt.Satisfies.pure fun _ bodies =>
            ⟨bodies, writing.path, writing.dbR, writing.inserted⟩

theorem davReposWriteStream_keeps {buf : List UInt8} :
    Attempt.Satisfies (IsWriting files dbR stream)
      (davReposWriteStream fails stream buf) (IsWriting files dbR)
      (HasBodies files) := by
  unfold davReposWriteStream
  apply Attempt.Satisfies.get_bind
  intro state writing
  rcases writing.path with ⟨uuid, isTemporary⟩
  split
  · exact Attempt.Satisfies.pure fun _ same => same ▸ writing
  · apply Attempt.Satisfies.bind
    · exact check_keeps.weaken fun _ same => same ▸ writing.bodies
    · intro _
      apply Attempt.Satisfies.bind
      · rw [isTemporary]
        exact changeFiles_keeps fun _ _ => set_temporary_body
      · intro _
        exact Attempt.Satisfies.pure fun _ bodies =>
          ⟨bodies, writing.path, writing.dbR, writing.inserted⟩

theorem writePart_keeps {chunks : List (List UInt8)} :
    Attempt.Satisfies (IsWriting files dbR stream)
      (writePart fails p stream offset chunks) (IsWriting files dbR)
      (HasBodies files) := by
  unfold writePart
  apply davReposSeekStream_keeps.bind
  intro stream
  exact Attempt.Satisfies.foldlM (fun _ _ => davReposWriteStream_keeps) chunks
    stream

theorem closeFile_keeps :
    Attempt.Satisfies (HasBodies files) (closeFile fails stream)
      (fun _ => HasBodies files) (HasBodies files) := by
  unfold closeFile
  apply Attempt.Satisfies.get_bind
  intro state bodies
  split
  · apply Attempt.Satisfies.bind
    · exact check_keeps.weaken fun _ same => same ▸ bodies
    · intro _
      exact Attempt.Satisfies.set fun _ _ => bodies.of_files rfl
  · exact Attempt.Satisfies.pure fun _ same => same ▸ bodies

/-- A statement changes no files. -/
theorem setStore_keeps
    {state : PutState} {before failed : PutState → Prop}
    {store : ContentStore} (bodies : HasBodies files state) :
    Attempt.Satisfies before
      (set { state with store := store } : PutAttempt Unit)
      (fun _ => HasBodies files) failed :=
  Attempt.Satisfies.set fun _ _ => bodies.of_files rfl

theorem storeRows_keeps :
    Attempt.Satisfies (HasBodies files) (storeRows server fails dbR)
      (fun _ => HasBodies files) (HasBodies files) := by
  have lifted {Value : Type} {result : Except Stop Value} :
      Attempt.Satisfies (HasBodies files)
        (Attempt.lift result : PutAttempt Value) (fun _ => HasBodies files)
        (HasBodies files) :=
    Attempt.Satisfies.lift (fun _ _ bodies _ => bodies) fun _ bodies => bodies
  unfold storeRows
  apply Attempt.Satisfies.get_bind
  intro state bodies
  apply Attempt.Satisfies.bind
  · exact check_keeps.weaken fun _ same => same ▸ bodies
  intro _
  apply lifted.bind
  intro store
  apply (setStore_keeps bodies).bind
  intro _
  apply check_keeps.bind
  intro _
  apply check_keeps.bind
  intro _
  apply lifted.bind
  intro updated
  exact setStore_keeps bodies

/-- Resources with a body, other than those that are locked only. -/
def HasBody (dbR : DavReposResource) : Prop :=
  dbR.resourcetype = some .resource ∨ dbR.resourcetype = some .versioned

theorem notLockNull_of_hasBody (hasBody : HasBody dbR) :
    dbR.resourcetype ≠ some .lockNull := by
  intro isNull
  rcases hasBody with plain | versioned
  · rw [plain] at isNull
    cases isNull
  · rw [versioned] at isNull
    cases isNull

theorem fillLockNull_of_hasBody (hasBody : HasBody dbR) :
    fillLockNull server dbR = pure dbR :=
  if_neg (notLockNull_of_hasBody hasBody)

theorem storeStream_of_hasBody (hasBody : HasBody dbR) :
    storeStream server fails stream dbR =
      storeBody server fails stream dbR :=
  if_pos hasBody

/-- The last step that may fail comes before the body is stored. -/
theorem storeBody_keeps :
    Attempt.Satisfies (HasBodies files) (storeBody server fails stream dbR)
      (fun _ _ => True) (HasBodies files) := by
  have read : Attempt.Satisfies (HasBodies files) (readFile stream.path)
      (fun _ => HasBodies files) (HasBodies files) := by
    apply Attempt.Satisfies.get_bind
    intro state bodies
    exact Attempt.Satisfies.pure fun _ same => same ▸ bodies
  unfold storeBody
  apply read.bind
  intro bytes
  apply storeRows_keeps.bind
  intro _ state _
  exact trivial

theorem davReposCloseStream_keeps (hasBody : HasBody stream.dbR) :
    Attempt.Satisfies (HasBodies files)
      (davReposCloseStream server fails stream true) (fun _ _ => True)
      (HasBodies files) := by
  unfold davReposCloseStream
  apply closeFile_keeps.bind
  intro _
  rw [if_pos rfl, fillLockNull_of_hasBody hasBody, pure_bind,
    storeStream_of_hasBody hasBody]
  apply storeBody_keeps.bind
  intro _ state _
  exact trivial

theorem abortStream_keeps {err : Stop}
    {after : DavStream → PutState → Prop} :
    Attempt.Satisfies (HasBodies files) (abortStream server fails stream err)
      after (HasBodies files) := by
  have closed : Attempt.Satisfies (HasBodies files)
      (davReposCloseStream server fails stream false)
      (fun _ => HasBodies files) (HasBodies files) := by
    unfold davReposCloseStream
    apply closeFile_keeps.bind
    intro _
    rw [if_neg Bool.false_ne_true]
    split
    · apply Attempt.Satisfies.get_bind
      intro state bodies
      exact setStore_keeps bodies
    · exact Attempt.Satisfies.pure fun _ bodies => bodies
  apply closed.bind
  intro _
  exact Attempt.Satisfies.throw fun _ bodies => bodies

/-- A PUT that fails leaves the bodies as they are. -/
theorem putPart_keeps
    {chunks : List (List UInt8)} (listed : dbR.serialno ≠ 0)
    (hasBody : HasBody dbR) :
    Attempt.Satisfies
      (fun state => HasBodies files state ∧ state.putStreamDone = none)
      (putPart server fails p dbR offset chunks) (fun _ _ => True)
      (HasBodies files) := by
  unfold putPart
  apply (davReposOpenStream_keeps listed).bind
  intro stream
  apply (writePart_keeps.tryCatch fun _ => abortStream_keeps).bind
  intro written state writing
  rw [← writing.dbR] at hasBody
  exact davReposCloseStream_keeps hasBody state writing.bodies

end Bodies

/-! ## A PUT that does not fail -/

section Runs

variable {server : PutServer} {state : PutState} {dbR : DavReposResource}
  {stream : DavStream} {offset : Nat} {p : Int} {sha1str : Text}
  {bytes body : List UInt8} {chunks : List (List UInt8)}

/-- No step fails for a reason of its own. -/
def works : PutStep → Bool :=
  fun _ => false

/-- The state with other bytes in the file of a stream. -/
def PutState.withFile (state : PutState) (path : FilePath)
    (bytes : List UInt8) : PutState :=
  { state with files := state.files.set path bytes }

theorem check_works {step : PutStep} {desc : String} :
    (check works step desc).outcome state = (.ok (), state) :=
  rfl

theorem outcome_changeFiles
    {change : Files FilePath UInt8 → Files FilePath UInt8} :
    (changeFiles change).outcome state =
      (.ok (), { state with files := change state.files }) :=
  rfl

theorem outcome_aprFileOpen
    {path : FilePath} (present : state.files path = some bytes) :
    (aprFileOpen works path).outcome state = (.ok (), state) := by
  unfold aprFileOpen
  rw [Attempt.outcome_bind_ok Attempt.outcome_get,
    Attempt.outcome_bind_ok check_works, present]
  rfl

theorem outcome_sabridgeGetResourceFile
    (named : dbR.sha1str = some sha1str)
    (present : state.files (.body sha1str) = some body) :
    (sabridgeGetResourceFile dbR).outcome state =
      (.ok (.temporary dbR.uuid),
        state.withFile (.temporary dbR.uuid) body) := by
  unfold sabridgeGetResourceFile
  rw [named]
  simp only
  rw [Attempt.outcome_bind_ok outcome_changeFiles, Files.copy_eq present]
  rfl

theorem outcome_davReposOpenStream
    (listed : dbR.serialno ≠ 0) (undone : state.putStreamDone = none)
    (named : dbR.sha1str = some sha1str)
    (present : state.files (.body sha1str) = some body) :
    (davReposOpenStream server works .writeSeekable dbR).outcome state =
      (.ok ⟨dbR, false, .temporary dbR.uuid, 0⟩,
        state.withFile (.temporary dbR.uuid) body) := by
  unfold davReposOpenStream
  rw [insertNew_of_listed listed, pure_bind,
    Attempt.outcome_bind_ok Attempt.outcome_get]
  simp only [undone]
  rw [Attempt.outcome_bind_ok (outcome_sabridgeGetResourceFile named present),
    Attempt.outcome_bind_ok (outcome_aprFileOpen Files.set_same)]
  rfl

/-- The stream goes where it should if `p` happens to say so. -/
theorem outcome_davReposSeekStream
    (undone : state.putStreamDone = none) :
    (davReposSeekStream works offset stream offset).outcome state =
      (.ok { stream with position := offset }, state) := by
  unfold davReposSeekStream
  rw [Attempt.outcome_bind_ok Attempt.outcome_get]
  simp only [undone]
  rw [Attempt.outcome_bind_ok check_works]
  have taken : aprFileSeek offset = some offset :=
    if_neg (Int.not_lt.mpr (Int.natCast_nonneg offset))
  rw [taken]
  simp only [ne_eq, not_true_eq_false, if_false]
  rfl

/-- Wherever else it goes, it is not where it should be. -/
theorem outcome_davReposSeekStream_error
    (undone : state.putStreamDone = none) (other : p ≠ offset) :
    ∃ err, (davReposSeekStream works p stream offset).outcome state =
      (.error err, state) := by
  unfold davReposSeekStream
  rw [Attempt.outcome_bind_ok Attempt.outcome_get]
  simp only [undone]
  rw [Attempt.outcome_bind_ok check_works]
  unfold aprFileSeek
  by_cases negative : p < 0
  · rw [if_pos negative]
    exact ⟨_, rfl⟩
  · have elsewhere : p.toNat ≠ offset := by omega
    rw [if_neg negative]
    simp only [ne_eq, elsewhere, not_false_eq_true, if_true]
    exact ⟨_, rfl⟩

theorem outcome_davReposWriteStream
    {chunk : List UInt8}
    (undone : state.putStreamDone = none) :
    (davReposWriteStream works stream chunk).outcome
        (state.withFile stream.path bytes) =
      (.ok { stream with position := stream.position + chunk.length },
        state.withFile stream.path
          (Files.overwrite bytes stream.position chunk)) := by
  unfold davReposWriteStream
  rw [Attempt.outcome_bind_ok Attempt.outcome_get]
  have same : (state.withFile stream.path bytes).putStreamDone = none := undone
  simp only [same]
  rw [Attempt.outcome_bind_ok check_works]
  rw [Attempt.outcome_bind_ok outcome_changeFiles]
  unfold PutState.withFile
  simp only [Files.set_same, Option.getD_some, Files.set_set]
  rfl

/-- The chunks are written one behind the other. -/
theorem outcome_writes (undone : state.putStreamDone = none) :
    ∃ position,
      (chunks.foldlM (davReposWriteStream works) stream).outcome
          (state.withFile stream.path bytes) =
        (.ok { stream with position := position },
          state.withFile stream.path
            (Files.overwriteAll bytes stream.position chunks)) := by
  induction chunks generalizing stream bytes with
  | nil => exact ⟨stream.position, rfl⟩
  | cons chunk chunks induction =>
      rw [List.foldlM_cons,
        Attempt.outcome_bind_ok (outcome_davReposWriteStream undone)]
      exact @induction
        { stream with position := stream.position + chunk.length } _

/-- What the columns of `resources` promise of a record. -/
structure HasLiveProps (dbR : DavReposResource) : Prop where
  createdAt : dbR.createdAt ≠ none
  displayname : ∀ name, dbR.displayname = some name → name.length ≤ 1024
  uuid : dbR.uuid ≠ none
  contentlanguage : ∀ language, dbR.getcontentlanguage = some language →
    language.length ≤ 255
  resourcetype : dbR.resourcetype ≠ none

theorem varchar_of_short {limit : Nat} {text : Text}
    (short : text.length ≤ limit) :
    DbmsProperties.varchar limit text = some text :=
  if_pos short

theorem dbmsSetProperty_isOk
    {store : ContentStore} (live : HasLiveProps dbR) :
    ∃ after, dbmsSetProperty store dbR = .ok after ∧
      after.media = store.media := by
  rcases Option.ne_none_iff_exists'.mp live.createdAt with
    ⟨createdAt, isCreated⟩
  rcases Option.ne_none_iff_exists'.mp live.uuid with ⟨uuid, isUuid⟩
  rcases Option.ne_none_iff_exists'.mp live.resourcetype with ⟨type, isType⟩
  have named : ∃ column, MediumUncheckout.displaynameColumn dbR.displayname =
      some column := by
    cases given : dbR.displayname with
    | none => exact ⟨none, rfl⟩
    | some name =>
        refine ⟨some name, ?_⟩
        show (DbmsProperties.varchar 1024 name).map some = _
        rw [varchar_of_short (live.displayname name given)]
        rfl
  have language : ∃ column, DbmsProperties.varchar 255
      (dbR.getcontentlanguage.getD "en-US".toList) = some column := by
    cases given : dbR.getcontentlanguage with
    | none => exact ⟨_, varchar_of_short (by decide)⟩
    | some language =>
        exact ⟨_, varchar_of_short (live.contentlanguage language given)⟩
  rcases named with ⟨displayname, isNamed⟩
  rcases language with ⟨contentlanguage, isLanguage⟩
  unfold dbmsSetProperty
  simp only [isCreated, isNamed, isUuid, isLanguage, isType]
  exact ⟨_, rfl, rfl⟩

theorem mediaOf_dbmsUpdateMediaProps
    {request : Request} {store after : ContentStore}
    {newDbR : DavReposResource} (named : dbR.sha1str = some sha1str)
    (updated : dbmsUpdateMediaProps request store dbR =
      .ok (after, newDbR)) :
    after.mediaOf dbR.serialno =
      (store.mediaOf dbR.serialno).map fun _ =>
        (dbR.getcontentlength, dbR.getcontenttype, sha1str) := by
  unfold dbmsUpdateMediaProps at updated
  rw [named] at updated
  rcases Prod.mk.inj (Except.ok.inj updated) with ⟨rfl, -⟩
  show ((store.media.map _).filter _).map _ = ((_ : List MediaRow).map _).map _
  rw [List.filter_map, List.map_map, List.map_map]
  have sameRows (written : DavReposResource)
      (same : written.serialno = dbR.serialno) :
      ((fun row : MediaRow => row.resourceId == dbR.serialno) ∘
        updatedMedia written sha1str) =
      fun row => row.resourceId == dbR.serialno := by
    funext row
    rw [← same]
    rw [Function.comp_apply, updatedMedia]
    split
    · rfl
    · rfl
  rw [sameRows { dbR with
    updatedAt := some request.now, sha1str := some sha1str } rfl]
  apply List.map_congr_left
  intro row listed
  have same := (List.mem_filter.mp listed).2
  rw [beq_iff_eq] at same
  simp only [Function.comp_apply, updatedMedia, if_pos same]

theorem outcome_readFile
    {path : FilePath} (present : state.files path = some bytes) :
    (readFile path).outcome state = (.ok bytes, state) := by
  unfold readFile
  rw [Attempt.outcome_bind_ok Attempt.outcome_get, present]
  rfl

/-- The rows of the resource are written. -/
theorem outcome_storeRows
    (live : HasLiveProps dbR) (named : dbR.sha1str = some sha1str) :
    ∃ store, (storeRows server works dbR).outcome state =
        (.ok (), { state with store := store }) ∧
      (∃ set newDbR, dbmsSetProperty state.store dbR = .ok set ∧
        dbmsUpdateMediaProps server.request set dbR = .ok (store, newDbR)) ∧
      store.mediaOf dbR.serialno = (state.store.mediaOf dbR.serialno).map
        fun _ => (dbR.getcontentlength, dbR.getcontenttype, sha1str) := by
  rcases @dbmsSetProperty_isOk dbR state.store live with ⟨set, isSet, media⟩
  have updated : ∃ after,
      dbmsUpdateMediaProps server.request set dbR = .ok after := by
    unfold dbmsUpdateMediaProps
    rw [named]
    exact ⟨_, rfl⟩
  rcases updated with ⟨⟨after, newDbR⟩, updated⟩
  refine ⟨after, ?_, ⟨set, newDbR, isSet, updated⟩, ?_⟩
  · unfold storeRows
    rw [Attempt.outcome_bind_ok Attempt.outcome_get,
      Attempt.outcome_bind_ok check_works, isSet,
      Attempt.outcome_bind_ok Attempt.outcome_lift,
      Attempt.outcome_bind_ok Attempt.outcome_set,
      Attempt.outcome_bind_ok check_works,
      Attempt.outcome_bind_ok check_works, updated,
      Attempt.outcome_bind_ok Attempt.outcome_lift]
    rfl
  · rw [mediaOf_dbmsUpdateMediaProps named updated]
    unfold ContentStore.mediaOf
    rw [media]

theorem outcome_closeFile (undone : state.putStreamDone = none) :
    (closeFile works stream).outcome state =
      (.ok (), { state with putStreamDone := some stream.path }) := by
  unfold closeFile
  rw [Attempt.outcome_bind_ok Attempt.outcome_get]
  simp only [undone, if_true]
  rw [Attempt.outcome_bind_ok check_works]
  rfl

/-- The bytes of the stream become the body of the resource. -/
theorem outcome_storeBody
    (present : state.files stream.path = some bytes)
    (hasBody : HasBody dbR) (live : HasLiveProps dbR) :
    ∃ store mimetype, (storeBody server works stream dbR).outcome state =
        (.ok (),
          { state with
            store := store
            files := (state.files.remove stream.path).set
              (.body (server.sha1 bytes)) bytes }) ∧
      MediumUncheckout.davReposCloseStream server.request state.store dbR
        ⟨bytes.length, mimetype, server.sha1 bytes⟩ = .ok store ∧
      store.mediaOf dbR.serialno = (state.store.mediaOf dbR.serialno).map
        fun _ => (bytes.length, mimetype, server.sha1 bytes) := by
  have fileLive : HasLiveProps (withFile server dbR bytes) :=
    ⟨live.createdAt, live.displayname, live.uuid, live.contentlanguage,
      live.resourcetype⟩
  rcases @outcome_storeRows server state (withFile server dbR bytes)
      (server.sha1 bytes) fileLive rfl with
    ⟨store, stored, ⟨set, newDbR, isSet, updated⟩, media⟩
  refine ⟨MediumUncheckout.sabridgePutResourceFile store
    (server.sha1 bytes), _, ?_, ?_, media⟩
  · unfold storeBody
    rw [Attempt.outcome_bind_ok (outcome_readFile present),
      Attempt.outcome_bind_ok stored]
    unfold sabridgePutResourceFile
    rw [Attempt.outcome_bind_ok Attempt.outcome_get, Files.rename_eq present]
    rfl
  · have notNull : dbR.resourcetype ≠ some .lockNull :=
      notLockNull_of_hasBody hasBody
    unfold MediumUncheckout.davReposCloseStream
    rw [if_neg notNull]
    have types : dbR.resourcetype = some .resource ∨
        dbR.resourcetype = some .versioned := hasBody
    show (if dbR.resourcetype = some .resource ∨
      dbR.resourcetype = some .versioned then _ else _) = _
    rw [if_pos types]
    show (do
      let store ← dbmsSetProperty state.store (withFile server dbR bytes)
      let updated ← dbmsUpdateMediaProps server.request store
        (withFile server dbR bytes)
      return MediumUncheckout.sabridgePutResourceFile updated.1
        (server.sha1 bytes)) = _
    rw [isSet]
    show (do
      let updated ← dbmsUpdateMediaProps server.request set
        (withFile server dbR bytes)
      return MediumUncheckout.sabridgePutResourceFile updated.1
        (server.sha1 bytes)) = _
    rw [updated]
    rfl

theorem outcome_davReposCloseStream
    {uuid : Option Text} (isTemporary : stream.path = .temporary uuid)
    (undone : state.putStreamDone = none) (hasBody : HasBody stream.dbR)
    (live : HasLiveProps stream.dbR) :
    ∃ after mimetype, (davReposCloseStream server works stream true).outcome
        (state.withFile stream.path bytes) = (.ok (), after) ∧
      MediumUncheckout.davReposCloseStream server.request state.store
        stream.dbR ⟨bytes.length, mimetype, server.sha1 bytes⟩ =
          .ok after.store ∧
      after.store.mediaOf stream.dbR.serialno =
        ((state.store.mediaOf stream.dbR.serialno).map fun _ =>
          (bytes.length, mimetype, server.sha1 bytes)) ∧
      after.files (.body (server.sha1 bytes)) = some bytes := by
  have stored := @outcome_storeBody server
    { state.withFile stream.path bytes with
      putStreamDone := some stream.path } stream.dbR stream bytes
    Files.set_same hasBody live
  rcases stored with ⟨store, mimetype, stored, refines, media⟩
  have fileClosed := @outcome_closeFile
    (state.withFile stream.path bytes) stream undone
  have closed : (davReposCloseStream server works stream true).outcome
      (state.withFile stream.path bytes) =
        (.ok (),
          { store := store
            files := Files.remove
              (Files.set ((state.withFile stream.path bytes).files.remove
                stream.path) (.body (server.sha1 bytes)) bytes)
              stream.path
            putStreamDone := some stream.path }) := by
    unfold davReposCloseStream
    rw [Attempt.outcome_bind_ok fileClosed, if_pos rfl,
      fillLockNull_of_hasBody hasBody, pure_bind,
      storeStream_of_hasBody hasBody, Attempt.outcome_bind_ok stored]
    exact outcome_changeFiles
  have other : FilePath.body (server.sha1 bytes) ≠ stream.path := by
    rw [isTemporary]
    intro same
    cases same
  exact ⟨_, mimetype, closed, refines, media,
    (Files.remove_of_ne other).trans Files.set_same⟩

end Runs

/-! ## What is promised -/

/-- The body of a resource, its row in `media`, and the record of it. -/
structure IsStored (server : PutServer) (state : PutState)
    (dbR : DavReposResource) (body : List UInt8) : Prop where
  listed : dbR.serialno ≠ 0
  hasBody : HasBody dbR
  live : HasLiveProps dbR
  undone : state.putStreamDone = none
  sha1str : dbR.sha1str = some (server.sha1 body)
  medium : ∃ mimetype, state.store.mediaOf dbR.serialno =
    [(body.length, mimetype, server.sha1 body)]
  present : state.files (.body (server.sha1 body)) = some body

/-- The bytes from an offset on are replaced by chunks. -/
def replaced (body : List UInt8) (offset : Nat)
    (chunks : List (List UInt8)) : List UInt8 :=
  body.take offset ++ chunks.flatten ++
    body.drop (offset + chunks.flatten.length)

/--
A PUT of a part at the offset stores the body with that part replaced, and
nothing is changed by one that fails.
-/
structure PutsPartially (server : PutServer) (p : Int) (state : PutState)
    (dbR : DavReposResource) (body : List UInt8) (offset : Nat)
    (chunks : List (List UInt8)) : Prop where
  stores : ∃ after mimetype,
    partialPut server works p state dbR offset chunks = (after, none) ∧
      after.store.mediaOf dbR.serialno =
        [((replaced body offset chunks).length, mimetype,
          server.sha1 (replaced body offset chunks))] ∧
      after.files (.body (server.sha1 (replaced body offset chunks))) =
        some (replaced body offset chunks)
  keeps : ∀ fails after err,
    partialPut server fails p state dbR offset chunks = (after, some err) →
      after.store.mediaOf dbR.serialno = state.store.mediaOf dbR.serialno ∧
      after.files (.body (server.sha1 body)) = some body

section Puts

variable {server : PutServer} {state : PutState} {dbR : DavReposResource}
  {body : List UInt8} {offset : Nat} {chunks : List (List UInt8)} {p : Int}

theorem partialPut_keeps
    (isStored : IsStored server state dbR body)
    {fails : PutStep → Bool} {after : PutState} {err : Stop}
    (failed : partialPut server fails p state dbR offset chunks =
      (after, some err)) :
    after.store = state.store ∧ HasBodies state.files after := by
  have kept := @putPart_keeps server fails state.files dbR offset p chunks
    isStored.listed isStored.hasBody state ⟨fun _ => rfl, isStored.undone⟩
  unfold partialPut at failed
  cases ended : (putPart server fails p dbR offset chunks).outcome state with
  | mk result middle =>
      rw [ended] at failed kept
      cases result with
      | ok value => cases failed
      | error error =>
          rcases Prod.mk.inj failed with ⟨rfl, -⟩
          exact ⟨rfl, kept.of_files rfl⟩

/-- A PUT for which `p` happens to hold the offset. -/
theorem partialPut_stores
    (isStored : IsStored server state dbR body)
    (inside : offset ≤ body.length) :
    ∃ after mimetype,
      partialPut server works offset state dbR offset chunks =
          (after, none) ∧
        after.store.mediaOf dbR.serialno =
          [((replaced body offset chunks).length, mimetype,
            server.sha1 (replaced body offset chunks))] ∧
        after.files (.body (server.sha1 (replaced body offset chunks))) =
          some (replaced body offset chunks) := by
  have opened := @outcome_davReposOpenStream server state dbR _ body
    isStored.listed isStored.undone isStored.sha1str isStored.present
  have sought := @outcome_davReposSeekStream
    (state.withFile (.temporary dbR.uuid) body)
    ⟨dbR, false, .temporary dbR.uuid, 0⟩ offset isStored.undone
  have written := @outcome_writes state
    ⟨dbR, false, .temporary dbR.uuid, offset⟩ body chunks isStored.undone
  rcases written with ⟨position, written⟩
  have closed := @outcome_davReposCloseStream server state
    ⟨dbR, false, .temporary dbR.uuid, position⟩ (replaced body offset chunks)
    dbR.uuid rfl isStored.undone isStored.hasBody isStored.live
  rcases closed with ⟨after, mimetype, closed, -, media, stored⟩
  rw [Files.overwriteAll_eq inside, Files.overwrite_inside inside] at written
  have tried : (writePart works offset
      ⟨dbR, false, .temporary dbR.uuid, 0⟩ offset chunks).outcome
        (state.withFile (.temporary dbR.uuid) body) =
      (.ok ⟨dbR, false, .temporary dbR.uuid, position⟩,
        state.withFile (.temporary dbR.uuid)
          (replaced body offset chunks)) := by
    unfold writePart
    rw [Attempt.outcome_bind_ok sought]
    exact written
  have put : (putPart server works offset dbR offset chunks).outcome state =
      (.ok (), after) := by
    unfold putPart
    rw [Attempt.outcome_bind_ok opened,
      Attempt.outcome_bind_ok (Attempt.outcome_tryCatch_ok tried)]
    exact closed
  refine ⟨after, mimetype, ?_, ?_, stored⟩
  · unfold partialPut
    rw [put]
  · rcases isStored.medium with ⟨before, medium⟩
    rw [media, medium]
    rfl

theorem abortStream_error {stream : DavStream} {err : Stop} :
    ∃ error, ((abortStream server works stream err).outcome state).1 =
      .error error := by
  unfold abortStream
  rw [Attempt.outcome_bind]
  split
  · exact ⟨_, rfl⟩
  · exact ⟨_, rfl⟩

/-- A PUT for which `p` holds something else. -/
theorem partialPut_error
    (isStored : IsStored server state dbR body) (other : p ≠ offset) :
    (partialPut server works p state dbR offset chunks).2 ≠ none := by
  have opened := @outcome_davReposOpenStream server state dbR _ body
    isStored.listed isStored.undone isStored.sha1str isStored.present
  have lost := @outcome_davReposSeekStream_error
    (state.withFile (.temporary dbR.uuid) body)
    ⟨dbR, false, .temporary dbR.uuid, 0⟩ offset p isStored.undone other
  rcases lost with ⟨err, lost⟩
  have unwritten : (writePart works p ⟨dbR, false, .temporary dbR.uuid, 0⟩
      offset chunks).outcome (state.withFile (.temporary dbR.uuid) body) =
        (.error err, state.withFile (.temporary dbR.uuid) body) := by
    unfold writePart
    exact Attempt.outcome_bind_error lost
  rcases @abortStream_error server (state.withFile (.temporary dbR.uuid) body)
    ⟨dbR, false, .temporary dbR.uuid, 0⟩ err with ⟨error, aborted⟩
  unfold partialPut putPart
  rw [Attempt.outcome_bind_ok opened, Attempt.outcome_bind_error
    ((Attempt.outcome_tryCatch_error unwritten).trans
      (Prod.ext aborted rfl))]
  exact Option.some_ne_none error

/--
A part is put as promised if and only if what `p` of `dav_repos_seek_stream`
holds, which the function does not set, is the offset.
-/
theorem putsPartially_iff
    (isStored : IsStored server state dbR body)
    (inside : offset ≤ body.length) :
    PutsPartially server p state dbR body offset chunks ↔ p = offset := by
  constructor
  · intro puts
    by_contra other
    rcases puts.stores with ⟨after, mimetype, done, -, -⟩
    have failed := @partialPut_error server state dbR body offset chunks p
      isStored other
    rw [done] at failed
    exact failed rfl
  · rintro rfl
    refine ⟨partialPut_stores isStored inside, ?_⟩
    intro fails after err failed
    rcases partialPut_keeps isStored failed with ⟨store, bodies⟩
    rw [store, bodies]
    exact ⟨rfl, isStored.present⟩

end Puts

/-! ## One stored body -/

/-- The hashes of `ab` and of `ax`. -/
def twoHashes (bytes : List UInt8) : Text :=
  if bytes = [97, 98] then "da23614e02469a0d7c7bd1bdab5c9c474b1904dc".toList
  else if bytes = [97, 120] then
    "2a2e1206b4222b0d7cc8c8a1d8b302ee70cfe817".toList
  else []

def oneServer : PutServer where
  request := RestoreVcc.someRequest
  uri := "/a".toList
  contentType := none
  sha1 := twoHashes
  getMimeType := fun _ _ => none
  insertResource := fun _ store dbR => .ok (store, dbR)
  deleteResource := fun store _ => store
  putUser := fun _ store _ _ => .ok store

theorem two_pos : (0 : Id) < 2 := by decide

theorem four_pos : (0 : Id) < 4 := by decide

/-- A resource with the body `ab`. -/
def oneBody : ContentStore where
  binds :=
    { rows := [⟨1, "a".toList, 2, 3, none⟩]
      pkey := by decide
      collectionIdKey := by decide
      positive := by decide }
  resources := [RestoreVcc.namedRow 2 "" .collection,
    RestoreVcc.namedRow 3 "a" .resource]
  redirectrefs := []
  collections := []
  media := [⟨3, 2, none, twoHashes [97, 98]⟩]
  principals := []
  versions := []
  vhrs := []
  vcrs := []
  nextId := 4
  nextIdPos := four_pos
  ids := by decide
  pkey := by decide
  nextBindId := 2
  nextBindIdPos := two_pos
  bindIds := by decide
  dead :=
    { properties := []
      nextId := 1
      namespaces := []
      resources := [2, 3]
      namespaceKeys := List.nodup_nil
      namespaceExists := DbmsProperties.noProperties_namespaceExists }
  deadResources := by decide
  files := [twoHashes [97, 98]]

def oneState : PutState where
  store := oneBody
  files := fun path =>
    if path = .body (twoHashes [97, 98]) then some [97, 98] else none
  putStreamDone := none

def oneDbr : DavReposResource where
  serialno := 3
  uri := some "/a".toList
  uuid := some "u".toList
  createdAt := some []
  displayname := some "a".toList
  resourcetype := some .resource
  getcontentlength := 2
  sha1str := some (twoHashes [97, 98])

theorem isStored_oneDbr : IsStored oneServer oneState oneDbr [97, 98] where
  listed := by decide
  hasBody := Or.inl rfl
  live :=
    { createdAt := Option.some_ne_none _
      displayname := by
        intro name isName
        rw [← Option.some.inj isName]
        decide
      uuid := Option.some_ne_none _
      contentlanguage := fun _ absent => nomatch absent
      resourcetype := Option.some_ne_none _ }
  undone := rfl
  sha1str := rfl
  medium := ⟨none, rfl⟩
  present := rfl

theorem putsPartially_oneDbr :
    PutsPartially oneServer 1 oneState oneDbr [97, 98] 1 [[120]] :=
  (putsPartially_iff isStored_oneDbr (by decide)).mpr rfl

/-- The second byte is to be replaced, and `p` happens to be zero. -/
theorem not_putsPartially :
    ¬ ∀ (server : PutServer) (p : Int) (state : PutState)
        (dbR : DavReposResource) (body : List UInt8) (offset : Nat)
        (chunks : List (List UInt8)),
      IsStored server state dbR body → offset ≤ body.length →
        PutsPartially server p state dbR body offset chunks := by
  intro always
  have puts := always oneServer 0 oneState oneDbr [97, 98] 1 [[120]]
    isStored_oneDbr (by decide)
  rcases puts.stores with ⟨after, mimetype, done, -, -⟩
  have failed := @partialPut_error oneServer oneState oneDbr [97, 98] 1
    [[120]] 0 isStored_oneDbr (by decide)
  rw [done] at failed
  exact failed rfl

end Limestone.PartialPut
