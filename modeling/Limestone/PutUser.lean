import Limestone.DbmsProperties
import Limestone.Library.Runs

/-!
# PUT of a user: `dav_repos_put_user`

The body of the PUT is an XML document with the credentials of the user.  The
table `users` has a hash of name and password, where the name is the email or,
in older rows, the name of the user.  A change of either has to show that the
password is known, and writes the hash again.

A request is a transaction: once a statement has failed the others fail too,
and what the request has done is rolled back, as it is when an error is
returned.
-/

namespace Limestone.PutUser

open Library DbmsProperties

/-! ## The hash -/

/-- `apr_md5`. -/
abbrev Md5 := Text → Fin 16 → Fin 256

/-- `%02x`. -/
def hexByte (byte : Fin 256) : Text :=
  [Nat.digitChar (byte.val / 16), Nat.digitChar (byte.val % 16)]

/-- What is hashed for a user name and a password. -/
def digestText (user password : Text) : Text :=
  user ++ ":users@limebits.com:".toList ++ password

/-- `get_password_hash`. -/
def getPasswordHash (md5 : Md5) (user password : Text) : Text :=
  (List.ofFn (md5 (digestText user password))).flatMap hexByte

/-! ## Rows, documents and requests -/

/-- The type `digest_username_type`. -/
inductive DigestUsernameType where
  | email
  | username
deriving DecidableEq, Repr

/-- A row of `users`. -/
structure UserRow where
  pwhash : Text
  email : Text
  type : DigestUsernameType
deriving DecidableEq, Repr

/-- The texts of the elements of a `user` document, `none` without one. -/
structure UserDoc where
  password : Option Text := none
  passwordHash : Option Text := none
  email : Option Text := none
  displayname : Option Text := none
  noProfile : Option Text := none
  otp : Option Text := none
  curPassword : Option Text := none
deriving DecidableEq, Repr

/-- `dav_repos_user_profile`. -/
structure UserProfile where
  id : Id
  email : Option Text
  username : Option Text
  passwordHash : Text
  displayname : Option Text
  otp : Option Text
deriving DecidableEq, Repr

/-- `dav_repos_profile_provider`; a hook may be missing. -/
structure ProfileProvider where
  create : Option (UserProfile → Option DavError)
  update : Option (UserProfile → Option DavError)

/-- The constraint `users_email_valid_check`. -/
structure EmailCheck where
  valid : Text → Bool
  short : ∀ email, valid email = true → email.length ≤ 254

/-- The statements of a request. -/
inductive Statement where
  | emailAvailable
  | getEmail
  | getPwhash
  | insertUser
  /-- The initial ACL, the groups and the home folder of a new user. -/
  | createHome
  | setPwhash
  | setEmail
  | setProperty
deriving DecidableEq, Repr

/-- The user resource, and what the server has to do with users. -/
structure UserServer where
  md5 : Md5
  emailCheck : EmailCheck
  provider : Option ProfileProvider
  serialno : Id
  /-- `basename(db_r->uri)`. -/
  username : Text

/-- A PUT, and the circumstances it meets. -/
structure Put where
  /-- `none` if the file is no document with a `user` element. -/
  doc : Option UserDoc
  path : String
  /-- The emails of the other users. -/
  taken : List Text
  /-- The statements that fail for a reason of their own. -/
  fails : Statement → Bool

/-- The row of the user, if there is one, and `resources.displayname`. -/
structure UserStore where
  user : Option UserRow
  displayname : Option Text
deriving DecidableEq, Repr

/-- The tables in a transaction, and whether a statement has failed in it. -/
structure Transaction where
  store : UserStore
  aborted : Bool
deriving DecidableEq, Repr

/-- How a function goes on; `crashes` is the use of a pointer that is NULL. -/
inductive Flow where
  | returns (transaction : Transaction) (err : DavError)
  | goesOn (transaction : Transaction) (err : Option DavError)
  | crashes

/-! ## Statements -/

/-- A statement, whose constraints are met or not; `true` if it fails. -/
def execute (put : Put) (statement : Statement) (met : Bool)
    (change : UserStore → UserStore) (transaction : Transaction) :
    Transaction × Bool :=
  if transaction.aborted || put.fails statement || !met then
    ({ transaction with aborted := true }, true)
  else ({ transaction with store := change transaction.store }, false)

/-- The value of the column `email`, if it meets the constraint. -/
def emailColumn (check : EmailCheck) (email : Text) : Option Text :=
  (varchar 255 email).filter check.valid

/-- `dbms_check_for_email_errors`, or the other error. -/
def emailError (check : EmailCheck) (transaction : Transaction)
    (email : Text) (other : String) : DavError :=
  if !transaction.aborted && !(varchar 255 email).all check.valid then
    ⟨httpConflict, "\"" ++ String.ofList email ++ "\" is an invalid email"⟩
  else dbmsError other

/-- `dbms_insert_user`; the type is the default. -/
def dbmsInsertUser (server : UserServer) (put : Put)
    (transaction : Transaction) (pwhash email : Text) :
    Transaction × Option DavError :=
  let stored := emailColumn server.emailCheck email
  let executed := execute put .insertUser
    (stored.isSome && transaction.store.user.isNone)
    (fun store => { store with
      user := stored.map fun email => ⟨pwhash, email, .email⟩ })
    transaction
  (executed.1,
    if executed.2 then
      some (emailError server.emailCheck transaction email
        "Couldn't insert user")
    else none)

/-- `dbms_set_user_email`. -/
def dbmsSetUserEmail (server : UserServer) (put : Put)
    (transaction : Transaction) (email : Text) :
    Transaction × Option DavError :=
  let stored := emailColumn server.emailCheck email
  let executed := execute put .setEmail stored.isSome
    (fun store => { store with
      user := store.user.map fun row =>
        { row with email := stored.getD row.email } })
    transaction
  (executed.1,
    if executed.2 then
      some (emailError server.emailCheck transaction email
        "Couldn't set principal email")
    else none)

/-- `dbms_set_user_pwhash`. -/
def dbmsSetUserPwhash (put : Put) (transaction : Transaction)
    (pwhash : Text) : Transaction × Option DavError :=
  let executed := execute put .setPwhash true
    (fun store => { store with
      user := store.user.map fun row =>
        { row with pwhash := pwhash, type := .email } })
    transaction
  (executed.1,
    if executed.2 then some (dbmsError "Couldn't update user") else none)

/-- `dbms_set_property`, as far as the name is concerned. -/
def dbmsSetProperty (put : Put) (transaction : Transaction)
    (displayname : Text) : Transaction × Option DavError :=
  let stored := varchar 1024 displayname
  let executed := execute put .setProperty stored.isSome
    (fun store => { store with displayname := stored }) transaction
  (executed.1,
    if executed.2 then some (dbmsError "Couldn't set live props") else none)

/-- `sabridge_verify_user_email_unique`; a SELECT that fails finds none. -/
def sabridgeVerifyUserEmailUnique (put : Put) (transaction : Transaction)
    (email : Text) : Transaction × Option DavError :=
  let executed := execute put .emailAvailable true id transaction
  let emails := (transaction.store.user.map UserRow.email).toList ++ put.taken
  (executed.1,
    if !executed.2 && decide (email ∈ emails) then
      some ⟨httpConflict, "email conflict for " ++ String.ofList email⟩
    else none)

/-! ## The functions -/

/-- `dav_repos_create_user`. -/
def davReposCreateUser (server : UserServer) (put : Put)
    (transaction : Transaction) (passwdHash email : Text) :
    Transaction × Option DavError :=
  match dbmsInsertUser server put transaction passwdHash email with
  | (transaction, some err) => (transaction, some err)
  | (transaction, none) =>
      let executed := execute put .createHome true id transaction
      (executed.1,
        if executed.2 then some (dbmsError "Couldn't create home folder")
        else none)

/-- The error of a hook, if the profile is wanted and there is the hook. -/
def profileError (doc : UserDoc) (provider : Option ProfileProvider)
    (hook : ProfileProvider → Option (UserProfile → Option DavError))
    (profile : UserProfile) : Option DavError :=
  match doc.noProfile, provider.bind hook with
  | none, some call => call profile
  | _, _ => none

/-- The part of `dav_repos_put_user` for a user that is inserted. -/
def putNewUser (server : UserServer) (put : Put) (doc : UserDoc)
    (transaction : Transaction) : Flow :=
  match doc.email, doc.displayname with
  | none, _ =>
      .returns transaction ⟨httpBadRequest, "email required for new user"⟩
  | some _, none =>
      .returns transaction
        ⟨httpBadRequest, "displayname required for new user"⟩
  | some email, some displayname =>
      match doc.passwordHash.or
          (doc.password.map (getPasswordHash server.md5 email)) with
      | none =>
          .returns transaction
            ⟨httpBadRequest, "password required for new user"⟩
      | some passwdHash =>
          match profileError doc server.provider ProfileProvider.create
              { id := server.serialno
                email := some email
                username := some server.username
                passwordHash := passwdHash
                displayname := some displayname
                otp := doc.otp } with
          | some err => .returns transaction err
          | none =>
              let created :=
                davReposCreateUser server put transaction passwdHash email
              .goesOn created.1 created.2

/-- The name that is hashed with the password. -/
def digestUsername (username : Text) (row : UserRow) : Text :=
  match row.type with
  | .email => row.email
  | .username => username

/-- The credentials are written. -/
def updateCredentials (server : UserServer) (put : Put) (doc : UserDoc)
    (transaction : Transaction) (passwdHash : Text) :
    Transaction × Option DavError :=
  let updated := dbmsSetUserPwhash put transaction passwdHash
  match doc.email with
  | none => updated
  | some email => dbmsSetUserEmail server put updated.1 email

/-- The part of `dav_repos_put_user` for a change of the credentials. -/
def putExistingUser (server : UserServer) (put : Put) (doc : UserDoc)
    (transaction : Transaction) : Flow :=
  let transaction := (execute put .getEmail true id transaction).1
  match doc.curPassword with
  | none =>
      .returns transaction
        ⟨httpBadRequest, "current password not provided"⟩
  | some curPasswd =>
      let read := execute put .getPwhash true id transaction
      match read.2, read.1.store.user with
      | false, some row =>
          if row.pwhash ≠ getPasswordHash server.md5
              (digestUsername server.username row) curPasswd then
            .returns read.1 ⟨httpBadRequest, "password did not match"⟩
          else
            let passwdHash := getPasswordHash server.md5
              (doc.email.getD row.email) (doc.password.getD curPasswd)
            match profileError doc server.provider ProfileProvider.update
                { id := server.serialno
                  email := doc.email
                  username := none
                  passwordHash := passwdHash
                  displayname := none
                  otp := none } with
            | some err => .returns read.1 err
            | none =>
                let updated :=
                  updateCredentials server put doc read.1 passwdHash
                .goesOn updated.1 updated.2
      -- the type is NULL
      | _, _ => .crashes

/-- The end of `dav_repos_put_user`; the error of the UPDATE is not used. -/
def putDisplayname (put : Put) (doc : UserDoc) : Flow → Flow
  | .goesOn transaction err =>
      match doc.displayname with
      | none => .goesOn transaction err
      | some displayname =>
          .goesOn (dbmsSetProperty put transaction displayname).1 err
  | flow => flow

/-- `dav_repos_put_user`; `inserted` is that of the stream. -/
def davReposPutUser (server : UserServer) (put : Put) (inserted : Bool)
    (transaction : Transaction) : Flow :=
  match put.doc with
  | none => .returns transaction ⟨httpBadRequest, put.path⟩
  | some doc =>
      let verified := match doc.email with
        | none => (transaction, none)
        | some email => sabridgeVerifyUserEmailUnique put transaction email
      match verified with
      | (transaction, some err) => .returns transaction err
      | (transaction, none) =>
          putDisplayname put doc
            (if inserted then putNewUser server put doc transaction
            else if doc.password.isSome || doc.email.isSome then
              putExistingUser server put doc transaction
            else .goesOn transaction none)

/-! ## Requests -/

/-- The tables after a PUT that succeeds. -/
def committed : Flow → Option UserStore
  | .goesOn transaction none =>
      if transaction.aborted then none else some transaction.store
  | _ => none

/-- The tables after a PUT of the resource, if it succeeds. -/
def succeeds (server : UserServer) (put : Put) (store : UserStore) :
    Option UserStore :=
  committed (davReposPutUser server put store.user.isNone ⟨store, false⟩)

/-! ## What a PUT writes -/

variable {server : UserServer} {put : Put} {doc : UserDoc}
  {transaction done : Transaction} {statement : Statement} {met : Bool}
  {change : UserStore → UserStore} {store new : UserStore} {row : UserRow}
  {email passwdHash : Text}

/-- A statement after which the transaction goes on has been executed. -/
theorem execute_eq
    (open_ : (execute put statement met change transaction).1.aborted =
      false) :
    transaction.aborted = false ∧ met = true ∧
      execute put statement met change transaction =
        (⟨change transaction.store, false⟩, false) := by
  unfold execute at open_ ⊢
  split at open_
  next => cases open_
  next executes =>
      rw [if_neg executes]
      rcases transaction with ⟨store, aborted⟩
      cases aborted with
      | true => exact absurd rfl executes
      | false =>
          cases met with
          | true => exact ⟨rfl, rfl, rfl⟩
          | false => exact absurd (by simp) executes

/-- A SELECT changes nothing. -/
theorem store_execute :
    (execute put statement met id transaction).1.store =
      transaction.store := by
  unfold execute
  split
  · rfl
  · rfl

theorem emailColumn_eq_some
    {check : EmailCheck} {stored : Text}
    (fits : emailColumn check email = some stored) :
    stored = email := by
  rw [emailColumn, Option.filter_eq_some_iff] at fits
  rcases fits with ⟨taken, valid⟩
  have short := check.short stored valid
  rcases varchar_cases 255 email with
    ⟨same, -⟩ | ⟨refused, -⟩ | ⟨value, cut, length, -, -⟩
  · rw [same] at taken
    exact (Option.some.inj taken).symm
  · rw [refused] at taken
    cases taken
  · rw [cut] at taken
    rw [← Option.some.inj taken] at short
    omega

theorem dbmsInsertUser_eq
    (open_ : (dbmsInsertUser server put transaction passwdHash email
      ).1.aborted = false) :
    transaction.aborted = false ∧
      (dbmsInsertUser server put transaction passwdHash email).1.store.user =
        some ⟨passwdHash, email, .email⟩ := by
  rcases execute_eq open_ with ⟨before, met, executed⟩
  have stored : (emailColumn server.emailCheck email).isSome = true := by
    rw [Bool.and_eq_true] at met
    exact met.1
  rcases Option.isSome_iff_exists.mp stored with ⟨stored, fits⟩
  refine ⟨before, ?_⟩
  unfold dbmsInsertUser
  simp only [executed]
  rw [fits, emailColumn_eq_some fits]
  rfl

theorem dbmsSetUserPwhash_eq
    (open_ : (dbmsSetUserPwhash put transaction passwdHash).1.aborted =
      false) :
    transaction.aborted = false ∧
      (dbmsSetUserPwhash put transaction passwdHash).1.store.user =
        transaction.store.user.map fun row =>
          { row with pwhash := passwdHash, type := .email } := by
  rcases execute_eq open_ with ⟨before, -, executed⟩
  refine ⟨before, ?_⟩
  unfold dbmsSetUserPwhash
  simp only [executed]

theorem dbmsSetUserEmail_eq
    (open_ : (dbmsSetUserEmail server put transaction email).1.aborted =
      false) :
    transaction.aborted = false ∧
      (dbmsSetUserEmail server put transaction email).1.store.user =
        transaction.store.user.map fun row => { row with email := email } := by
  rcases execute_eq open_ with ⟨before, met, executed⟩
  rcases Option.isSome_iff_exists.mp met with ⟨stored, fits⟩
  refine ⟨before, ?_⟩
  unfold dbmsSetUserEmail
  simp only [executed]
  rw [fits, emailColumn_eq_some fits]
  rfl

theorem dbmsSetProperty_eq
    {displayname : Text}
    (open_ : (dbmsSetProperty put transaction displayname).1.aborted =
      false) :
    transaction.aborted = false ∧
      (dbmsSetProperty put transaction displayname).1.store.user =
        transaction.store.user := by
  rcases execute_eq open_ with ⟨before, -, executed⟩
  refine ⟨before, ?_⟩
  unfold dbmsSetProperty
  simp only [executed]

theorem davReposCreateUser_eq
    (open_ : (davReposCreateUser server put transaction passwdHash email
      ).1.aborted = false) :
    (davReposCreateUser server put transaction passwdHash email
      ).1.store.user = some ⟨passwdHash, email, .email⟩ := by
  unfold davReposCreateUser at open_ ⊢
  rcases inserted : dbmsInsertUser server put transaction passwdHash email
    with ⟨next, err⟩
  rw [inserted] at open_
  have written : next.aborted = false →
      next.store.user = some ⟨passwdHash, email, .email⟩ := by
    intro nextOpen
    have insertedOpen : (dbmsInsertUser server put transaction passwdHash
        email).1.aborted = false := by
      rw [inserted]
      exact nextOpen
    have row := (dbmsInsertUser_eq insertedOpen).2
    rw [inserted] at row
    exact row
  cases err with
  | some err => exact written open_
  | none =>
      rcases execute_eq open_ with ⟨nextOpen, -, executed⟩
      simp only [executed]
      exact written nextOpen

theorem updateCredentials_eq
    (open_ : (updateCredentials server put doc transaction passwdHash
      ).1.aborted = false)
    (present : transaction.store.user = some row) :
    (updateCredentials server put doc transaction passwdHash).1.store.user =
      some ⟨passwdHash, doc.email.getD row.email, .email⟩ := by
  unfold updateCredentials at open_ ⊢
  cases given : doc.email with
  | none =>
      rw [given] at open_
      have hashed := (dbmsSetUserPwhash_eq open_).2
      rw [present] at hashed
      exact hashed
  | some email =>
      rw [given] at open_
      rcases dbmsSetUserEmail_eq open_ with ⟨between, written⟩
      have hashed := (dbmsSetUserPwhash_eq between).2
      rw [present] at hashed
      rw [hashed] at written
      exact written

/-- What a PUT that succeeds does to the row of the user. -/
inductive Writes (server : UserServer) (put : Put) (store new : UserStore) :
    Prop
  | created {doc : UserDoc} {email passwdHash : Text}
      (isDoc : put.doc = some doc)
      (absent : store.user = none)
      (named : doc.email = some email)
      (hashed : doc.passwordHash.or
        (doc.password.map (getPasswordHash server.md5 email)) =
          some passwdHash)
      (user : new.user = some ⟨passwdHash, email, .email⟩)
  | kept {doc : UserDoc}
      (isDoc : put.doc = some doc)
      (unchanged : doc.password = none)
      (user : new.user = store.user)
  | changed {doc : UserDoc} {row : UserRow} {curPasswd : Text}
      (isDoc : put.doc = some doc)
      (present : store.user = some row)
      (supplied : doc.curPassword = some curPasswd)
      (verified : row.pwhash = getPasswordHash server.md5
        (digestUsername server.username row) curPasswd)
      (user : new.user = some
        ⟨getPasswordHash server.md5 (doc.email.getD row.email)
            (doc.password.getD curPasswd),
          doc.email.getD row.email, .email⟩)

theorem writes_putNewUser
    (isDoc : put.doc = some doc)
    (absent : store.user = none)
    (flow : putNewUser server put doc transaction = .goesOn done none)
    (open_ : done.aborted = false)
    (same : new.user = done.store.user) :
    Writes server put store new := by
  unfold putNewUser at flow
  split at flow
  next => cases flow
  next => cases flow
  next email displayname named _ =>
      split at flow
      next => cases flow
      next passwdHash hashed =>
          split at flow
          next => cases flow
          next =>
              rcases Flow.goesOn.inj flow with ⟨rfl, -⟩
              refine Writes.created isDoc absent named hashed ?_
              rw [same]
              exact davReposCreateUser_eq open_

theorem writes_putExistingUser
    (isDoc : put.doc = some doc)
    (isStore : transaction.store = store)
    (flow : putExistingUser server put doc transaction = .goesOn done none)
    (open_ : done.aborted = false)
    (same : new.user = done.store.user) :
    Writes server put store new := by
  unfold putExistingUser at flow
  simp only at flow
  split at flow
  next => cases flow
  next curPasswd supplied =>
      split at flow
      next row succeeded present =>
          split at flow
          next => cases flow
          next matches_ =>
              split at flow
              next => cases flow
              next =>
                  rcases Flow.goesOn.inj flow with ⟨rfl, -⟩
                  have user := updateCredentials_eq open_ present
                  rw [store_execute, store_execute, isStore] at present
                  refine Writes.changed isDoc present supplied
                    (not_not.mp matches_) ?_
                  rw [same]
                  exact user
      next => cases flow

theorem putDisplayname_eq
    {flow : Flow}
    (shown : putDisplayname put doc flow = .goesOn done none)
    (open_ : done.aborted = false) :
    ∃ before, flow = .goesOn before none ∧ before.aborted = false ∧
      done.store.user = before.store.user := by
  cases flow with
  | returns transaction err => cases shown
  | crashes => cases shown
  | goesOn transaction err =>
      unfold putDisplayname at shown
      simp only at shown
      cases named : doc.displayname with
      | none =>
          rw [named] at shown
          rcases Flow.goesOn.inj shown with ⟨rfl, rfl⟩
          exact ⟨transaction, rfl, open_, rfl⟩
      | some displayname =>
          rw [named] at shown
          rcases Flow.goesOn.inj shown with ⟨rfl, rfl⟩
          rcases dbmsSetProperty_eq open_ with ⟨before, user⟩
          exact ⟨transaction, rfl, before, user⟩

theorem writes_of_succeeds
    (success : succeeds server put store = some new) :
    Writes server put store new := by
  unfold succeeds committed at success
  split at success
  next done flow =>
      split at success
      next => cases success
      next open_ =>
          rcases Option.some.inj success with rfl
          have isOpen : done.aborted = false :=
            Bool.eq_false_of_not_eq_true open_
          unfold davReposPutUser at flow
          cases isDoc : put.doc with
          | none =>
              rw [isDoc] at flow
              cases flow
          | some doc =>
              rw [isDoc] at flow
              simp only at flow
              split at flow
              next => cases flow
              next verified isVerified =>
                  have isStore : verified.store = store := by
                    split at isVerified
                    next =>
                        rw [← (Prod.mk.inj isVerified).1]
                    next =>
                        rw [← (Prod.mk.inj isVerified).1]
                        exact store_execute
                  rcases putDisplayname_eq flow isOpen with
                    ⟨before, branch, beforeOpen, user⟩
                  split at branch
                  next inserted =>
                      exact writes_putNewUser isDoc
                        (Option.isNone_iff_eq_none.mp inserted) branch
                        beforeOpen user
                  next inserted =>
                      split at branch
                      next =>
                          exact writes_putExistingUser isDoc isStore branch
                            beforeOpen user
                      next neither =>
                          rcases Flow.goesOn.inj branch with ⟨rfl, -⟩
                          rw [Bool.or_eq_true, not_or] at neither
                          refine Writes.kept isDoc ?_ ?_
                          · exact Option.not_isSome_iff_eq_none.mp neither.1
                          · rw [user, isStore]
  next => cases success

/-! ## Runs of PUTs -/

/-- The tables, and the password that the user has. -/
structure Credentials where
  store : UserStore
  password : Text
deriving DecidableEq, Repr

/-- The text of an element, if there is the document and the element. -/
def Put.element (put : Put) (element : UserDoc → Option Text) : Option Text :=
  put.doc.bind element

/-- A PUT of the resource: if it succeeds, the password is the one supplied. -/
def after (server : UserServer) (state : Credentials) (put : Put) :
    Credentials :=
  match succeeds server put state.store with
  | none => state
  | some store =>
      ⟨store, (put.element UserDoc.password).getD state.password⟩

/-- The hash of the row is that of the selected name and the password. -/
def Follows (server : UserServer) (state : Credentials) : Prop :=
  ∀ row ∈ state.store.user,
    row.pwhash = getPasswordHash server.md5
      (digestUsername server.username row) state.password

/-- A user is created without a hash that the client has made. -/
def CreatesUnhashed (state : Credentials) (put : Put) : Prop :=
  state.store.user = none → put.element UserDoc.passwordHash = none

/-- The email and the hash change only if the password was supplied. -/
def ChangesWithPassword (server : UserServer) (state : Credentials)
    (put : Put) : Prop :=
  ∀ row ∈ state.store.user, ∀ new ∈ (after server state put).store.user,
    new.email ≠ row.email ∨ new.pwhash ≠ row.pwhash →
      put.element UserDoc.curPassword = some state.password

/-- The passwords that a PUT supplies. -/
def Put.passwords (put : Put) : List Text :=
  (put.element UserDoc.password).toList ++
    (put.element UserDoc.curPassword).toList

/-- The names that a run hashes with a password. -/
def hashedNames (server : UserServer) (start : Credentials)
    (puts : List Put) : List Text :=
  server.username :: ((start.store.user.map UserRow.email).toList ++
    puts.flatMap fun put => (put.element UserDoc.email).toList)

/-- The passwords that the user has in a run, or that a PUT supplies. -/
def hashedPasswords (start : Credentials) (puts : List Put) : List Text :=
  start.password :: puts.flatMap Put.passwords

/-- MD5 has no collision on what is hashed of the names and passwords. -/
def CollisionFree (md5 : Md5) (names passwords : List Text) : Prop :=
  ∀ user ∈ names, ∀ first ∈ passwords, ∀ second ∈ passwords,
    md5 (digestText user first) = md5 (digestText user second) →
      first = second

/-- The user's password and names are among those. -/
structure Listed (server : UserServer) (names passwords : List Text)
    (state : Credentials) : Prop where
  username : server.username ∈ names
  email : ∀ row ∈ state.store.user, row.email ∈ names
  password : state.password ∈ passwords

/-- What the PUT supplies is among those. -/
structure Supplied (names passwords : List Text) (put : Put) : Prop where
  email : ∀ email ∈ put.element UserDoc.email, email ∈ names
  passwords : ∀ password ∈ put.passwords, password ∈ passwords

variable {state : Credentials} {names passwords : List Text}

/-! ## Hashes that are the same -/

theorem hexByte_injective : Function.Injective hexByte := by
  have digits : ∀ first second : Fin 16,
      Nat.digitChar first.val = Nat.digitChar second.val → first = second := by
    decide
  intro first second same
  have firstBound := first.isLt
  have secondBound := second.isLt
  have high := digits ⟨first.val / 16, by omega⟩ ⟨second.val / 16, by omega⟩
    (List.cons.inj same).1
  have low := digits ⟨first.val % 16, by omega⟩ ⟨second.val % 16, by omega⟩
    (List.cons.inj (List.cons.inj same).2).1
  have highs : first.val / 16 = second.val / 16 := Fin.mk.inj high
  have lows : first.val % 16 = second.val % 16 := Fin.mk.inj low
  apply Fin.ext
  omega

theorem flatMap_hexByte_injective :
    Function.Injective fun bytes : List (Fin 256) =>
      bytes.flatMap hexByte := by
  intro first
  induction first with
  | nil =>
      intro second same
      cases second with
      | nil => rfl
      | cons byte second => cases same
  | cons byte first induction =>
      intro second same
      cases second with
      | nil => cases same
      | cons other second =>
          have parts : hexByte byte ++ first.flatMap hexByte =
              hexByte other ++ second.flatMap hexByte := same
          have pieces := List.append_inj parts rfl
          rw [hexByte_injective pieces.1, induction pieces.2]

theorem getPasswordHash_inj
    {user first second : Text}
    (collisionFree : CollisionFree server.md5 names passwords)
    (named : user ∈ names)
    (member : first ∈ passwords) (otherMember : second ∈ passwords)
    (same : getPasswordHash server.md5 user first =
      getPasswordHash server.md5 user second) :
    first = second := by
  apply collisionFree user named first member second otherMember
  exact List.ofFn_injective (flatMap_hexByte_injective same)

/-! ## The invariant -/

theorem Put.element_of_doc
    (isDoc : put.doc = some doc) (element : UserDoc → Option Text) :
    put.element element = element doc := by
  rw [Put.element, isDoc]
  rfl

/-- A row that is not written has no other email or hash. -/
theorem unchanged_of_mem
    {stored : Option UserRow} {row new : UserRow}
    (present : row ∈ stored) (newPresent : new ∈ stored)
    (differs : new.email ≠ row.email ∨ new.pwhash ≠ row.pwhash) : False := by
  rw [Option.mem_unique present newPresent] at differs
  rcases differs with email | pwhash
  · exact email rfl
  · exact pwhash rfl

theorem Listed.digestUsername
    {row : UserRow} (listed : Listed server names passwords state)
    (present : state.store.user = some row) :
    digestUsername server.username row ∈ names := by
  unfold PutUser.digestUsername
  split
  · exact listed.email row present
  · exact listed.username

theorem follows_after
    (follows : Follows server state)
    (unhashed : CreatesUnhashed state put)
    (collisionFree : CollisionFree server.md5 names passwords)
    (current : Listed server names passwords state)
    (supplied : Supplied names passwords put) :
    Follows server (after server state put) ∧
      ChangesWithPassword server state put := by
  unfold after ChangesWithPassword after
  cases success : succeeds server put state.store with
  | none =>
      refine ⟨follows, ?_⟩
      intro row present new newPresent differs
      exact (unchanged_of_mem present newPresent differs).elim
  | some store =>
      cases writes_of_succeeds success with
      | @created doc email passwdHash isDoc absent named hashed user =>
          have element := Put.element_of_doc isDoc
          have none_ := unhashed absent
          rw [element] at none_
          rw [none_, Option.none_or, Option.map_eq_some_iff] at hashed
          rcases hashed with ⟨password, given, isHash⟩
          constructor
          · intro row present
            have isRow := Option.mem_unique present user
            rw [isRow, element, given]
            exact isHash.symm
          · intro row present
            rw [absent] at present
            cases present
      | @kept doc isDoc unchanged user =>
          have given : put.element UserDoc.password = none :=
            (Put.element_of_doc isDoc _).trans unchanged
          constructor
          · intro row present
            rw [given]
            exact follows row (user ▸ present)
          · intro row present new newPresent differs
            exact (unchanged_of_mem present (user ▸ newPresent)
              differs).elim
      | @changed doc row curPasswd isDoc present given verified user =>
          have element := Put.element_of_doc isDoc
          have listed : curPasswd ∈ passwords := by
            apply supplied.passwords
            apply List.mem_append_right
            rw [element, given]
            exact List.mem_singleton_self curPasswd
          -- the hash of the row is that of the password as well
          have isCurrent : curPasswd = state.password :=
            getPasswordHash_inj collisionFree
              (current.digestUsername present) listed current.password
              (verified.symm.trans (follows row present))
          constructor
          · intro new newPresent
            have isNew := Option.mem_unique newPresent user
            rw [isNew, element, isCurrent]
            rfl
          · intro other _ new _ _
            rw [element, given, isCurrent]

theorem password_after_mem
    (current : state.password ∈ passwords)
    (supplied : ∀ password ∈ put.passwords, password ∈ passwords) :
    (after server state put).password ∈ passwords := by
  unfold after
  cases succeeds server put state.store with
  | none => exact current
  | some store =>
      show (put.element UserDoc.password).getD state.password ∈ passwords
      cases given : put.element UserDoc.password with
      | none => exact current
      | some password =>
          apply supplied
          apply List.mem_append_left
          rw [given]
          exact List.mem_singleton_self password

theorem email_after_mem
    (current : ∀ row ∈ state.store.user, row.email ∈ names)
    (supplied : ∀ email ∈ put.element UserDoc.email, email ∈ names) :
    ∀ row ∈ (after server state put).store.user, row.email ∈ names := by
  unfold after
  cases success : succeeds server put state.store with
  | none => exact current
  | some store =>
      intro new present
      cases writes_of_succeeds success with
      | @created doc email passwdHash isDoc absent named hashed user =>
          rw [Option.mem_unique present user]
          apply supplied
          rw [Put.element_of_doc isDoc]
          exact named
      | @kept doc isDoc unchanged user =>
          exact current new (user ▸ present)
      | @changed doc row curPasswd isDoc was given verified user =>
          rw [Option.mem_unique present user]
          show doc.email.getD row.email ∈ names
          cases named : doc.email with
          | none => exact current row was
          | some email =>
              apply supplied
              rw [Put.element_of_doc isDoc]
              exact named

theorem Listed.after
    (current : Listed server names passwords state)
    (supplied : Supplied names passwords put) :
    Listed server names passwords (after server state put) where
  username := current.username
  email := email_after_mem current.email supplied.email
  password := password_after_mem current.password supplied.passwords

theorem run_followCredentials
    {puts : List Put}
    (collisionFree : CollisionFree server.md5 names passwords)
    (current : Listed server names passwords state)
    (supplied : ∀ put ∈ puts, Supplied names passwords put)
    (follows : Follows server state)
    (unhashed : Runs.Guarded (after server) CreatesUnhashed state puts) :
    Runs.Throughout (after server) (Follows server) state puts ∧
      Runs.Guarded (after server) (ChangesWithPassword server) state puts := by
  induction puts generalizing state with
  | nil => exact ⟨follows, trivial⟩
  | cons put puts induction =>
      rcases unhashed with ⟨unhashed, later⟩
      have here := supplied put List.mem_cons_self
      have next := follows_after follows unhashed collisionFree current here
      have others : ∀ other ∈ puts, Supplied names passwords other :=
        fun other member => supplied other (List.mem_cons_of_mem put member)
      rcases induction (current.after here) others next.1 later with
        ⟨throughout, guarded⟩
      exact ⟨⟨follows, throughout⟩, next.2, guarded⟩

/--
In a run of PUTs on a user the hash follows the credentials, and they change
only if the password was supplied.
-/
theorem puts_followCredentials
    (server : UserServer) (start : Credentials) (puts : List Put)
    (follows : Follows server start)
    (unhashed : Runs.Guarded (after server) CreatesUnhashed start puts)
    (collisionFree : CollisionFree server.md5
      (hashedNames server start puts) (hashedPasswords start puts)) :
    Runs.Throughout (after server) (Follows server) start puts ∧
      Runs.Guarded (after server) (ChangesWithPassword server) start puts := by
  refine run_followCredentials collisionFree ⟨List.mem_cons_self, ?_,
    List.mem_cons_self⟩ ?_ follows unhashed
  · intro row present
    apply List.mem_cons_of_mem
    apply List.mem_append_left
    rw [Option.mem_def.mp present]
    exact List.mem_singleton_self row.email
  · intro put member
    constructor
    · intro email given
      apply List.mem_cons_of_mem
      apply List.mem_append_right
      exact List.mem_flatMap.mpr ⟨put, member, Option.mem_toList.mpr given⟩
    · intro password given
      apply List.mem_cons_of_mem
      exact List.mem_flatMap.mpr ⟨put, member, given⟩

/-! ## A user who changes the email -/

/-- The bytes of two digests; other texts are not hashed below. -/
def sampleDigest (text : Text) : List (Fin 256) :=
  if text = digestText "a@b.co".toList "x".toList then
    [0xd9, 0x83, 0x75, 0x5b, 0xb1, 0xc5, 0xae, 0x41,
      0x6e, 0x98, 0xff, 0x6f, 0x63, 0x8b, 0xd8, 0x14]
  else if text = digestText "c@d.co".toList "x".toList then
    [0xcb, 0xe8, 0x24, 0x92, 0xc0, 0xd4, 0x23, 0x76,
      0xe6, 0xd9, 0xa3, 0xeb, 0x2a, 0x12, 0x44, 0x33]
  else []

def sampleServer : UserServer where
  md5 := fun text index => (sampleDigest text).getD index 0
  emailCheck :=
    { valid := fun email => email.contains '@' && decide (email.length ≤ 254)
      short := by
        intro email valid
        rw [Bool.and_eq_true] at valid
        exact of_decide_eq_true valid.2 }
  provider := none
  serialno := 20
  username := "ann".toList

def samplePut (doc : UserDoc) : Put where
  doc := some doc
  path := "/tmp/ann"
  taken := []
  fails := fun _ => false

/-- The user is created, and takes another email. -/
def samplePuts : List Put :=
  [samplePut
      { password := some "x".toList
        email := some "a@b.co".toList
        displayname := some "Ann".toList },
    samplePut
      { email := some "c@d.co".toList
        curPassword := some "x".toList }]

/-- There is no user yet, and the password will be `x`. -/
def sampleStart : Credentials :=
  ⟨⟨none, none⟩, "x".toList⟩

theorem puts_followCredentials_example :
    (samplePuts.foldl (after sampleServer) sampleStart).store.user =
        some ⟨"cbe82492c0d42376e6d9a3eb2a124433".toList, "c@d.co".toList,
          .email⟩ ∧
      Runs.Throughout (after sampleServer) (Follows sampleServer) sampleStart
        samplePuts ∧
      Runs.Guarded (after sampleServer) (ChangesWithPassword sampleServer)
        sampleStart samplePuts := by
  refine ⟨by decide +kernel, puts_followCredentials sampleServer sampleStart
    samplePuts nofun ⟨fun _ => rfl, fun _ => rfl, trivial⟩ ?_⟩
  have single : ∀ password ∈ hashedPasswords sampleStart samplePuts,
      password = "x".toList := by
    decide +kernel
  intro user _ first member second otherMember _
  rw [single first member, single second otherMember]

end Limestone.PutUser
