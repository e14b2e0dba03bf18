import Limestone.Library.OrderBy
import Limestone.Library.Segments
import Limestone.Library.Sql
import Limestone.Schema

/-!
# Hrefs in a user's domain: `dav_repos_response_href_transform`

The path that the host is mapped to is taken off the front of a URI.  That it
ends where a segment ends is not looked at, and the end of the host that is
compared with a dot and the name of the server is as long as the name alone.
-/

namespace Limestone.ResponseHref

open Library
open Library.Segments (IsCut)

/-! ## The tables -/

/-- A row of `user_domains`; `none` is NULL. -/
structure UserDomain where
  id : Id
  principalId : Option Id
  domain : Option Text
  path : Option Text
deriving DecidableEq, Repr

/-- A row of `principals`. -/
structure Principal where
  resourceId : Id
  name : Text
deriving DecidableEq, Repr

structure DomainTables where
  userDomains : List UserDomain
  principals : List Principal
deriving Repr

/-- The rows of the join of which `domain` is the host. -/
def DomainTables.mapped (tables : DomainTables) (host : Text) :
    List (Principal × UserDomain) :=
  (Sql.crossJoin tables.principals tables.userDomains).filter fun pair =>
    pair.2.principalId == some pair.1.resourceId && pair.2.domain == some host

section Lookup

variable (order : Sql.RowOrder (Principal × UserDomain))
  (tables : DomainTables)

/-- The query of `dbms_get_domain_path`, `ORDER BY id LIMIT 1`. -/
def domainRow (host : Text) : Option (Principal × UserDomain) :=
  Sql.limitOne (Sql.orderBy (fun pair => pair.2.id)
    (order.arrange host.length (tables.mapped host)))

/-- `dbms_get_domain_path`; `dbms_get_string` gives no NULL. -/
def dbmsGetDomainPath (host : Text) : Option Text :=
  match domainRow order tables host with
  | some (principal, row) =>
      some ("/home/".toList ++ principal.name ++ row.path.getD [])
  | none =>
      -- not found: it is tried again without `www.`
      match host with
      | 'w' :: 'w' :: 'w' :: '.' :: rest => dbmsGetDomainPath rest
      | _ => none

theorem home_isPrefix
    {host path : Text}
    (found : dbmsGetDomainPath order tables host = some path) :
    "/home/".toList <+: path := by
  fun_induction dbmsGetDomainPath order tables host with
  | case1 host principal row here =>
      rcases Option.some.inj found with rfl
      exact ⟨principal.name ++ row.path.getD [],
        (List.append_assoc _ _ _).symm⟩
  | case2 rest missing induction => exact induction found
  | case3 host missing other => cases found

end Lookup

/-! ## The function -/

/--
What a request has of the function's: `notes` is `ls_response_href_t`, which
keeps what the lookup gave before.
-/
structure Request (lookup : Text → Option Text) where
  host : Text
  serverHostname : Option Text
  notes : Option Text
  noted : ∀ path, notes = some path → lookup host = some path

/-- `strip_port`. -/
def stripPort (host : Text) : Text :=
  host.takeWhile (· != ':')

/-- The comparison with `ServerName`, as the code makes it. -/
def matchesServerName (serverHostname : Option Text) (hostname : Text) :
    Bool :=
  match serverHostname with
  | none => false
  | some serverName =>
      hostname == serverName ||
        (decide (serverName.length < hostname.length) &&
          hostname.drop (hostname.length - serverName.length) ==
            '.' :: serverName)

/-- The path is taken off a URI that begins with it. -/
def resultUri (path uri : Text) : Text :=
  if path.isPrefixOf uri then uri.drop path.length else uri

/-- If nothing is left, the URI is that of the path. -/
def withoutPath (path uri : Text) : Text :=
  if (resultUri path uri).isEmpty then "/".toList else resultUri path uri

section Transform

variable {lookup : Text → Option Text}

/-- The path from the notes, or else the one that is looked up and noted. -/
def Request.path (request : Request lookup) :
    Option Text × Request lookup :=
  match request.notes with
  | some path => (some path, request)
  | none =>
      (lookup request.host,
        { request with
          notes := lookup request.host
          noted := fun _ found => found })

theorem Request.path_fst (request : Request lookup) :
    request.path.1 = lookup request.host := by
  rw [Request.path]
  split
  next path here => exact (request.noted path here).symm
  next => rfl

/-- `dav_repos_response_href_transform`, for a request with a host. -/
def davReposResponseHrefTransform (request : Request lookup) (uri : Text) :
    Text × Request lookup :=
  if matchesServerName request.serverHostname (stripPort request.host) then
    (uri, request)
  else
    match request.path with
    | (some path, noted) => (withoutPath path uri, noted)
    | (none, noted) => (uri, noted)

/-! ## What the result is to be -/

def IsAbsolute (uri : Text) : Prop :=
  ∃ rest, uri = '/' :: rest

/-- The host is the name of the server, or a subdomain of it. -/
def IsServed (serverHostname : Option Text) (hostname : Text) : Prop :=
  ∃ serverName ∈ serverHostname,
    hostname = serverName ∨ '.' :: serverName <:+ hostname

/-- The URI lies below the path at the end of a segment. -/
def IsBelow (path uri : Text) : Prop :=
  ∃ rest, IsAbsolute rest ∧ path ++ rest = uri

structure MapsBack (path uri result : Text) : Prop where
  absolute : IsAbsolute result
  shape : (uri = path ∧ result = "/".toList) ∨ path ++ result = uri ∨
    (uri ≠ path ∧ ¬ IsBelow path uri ∧ result = uri)

/-- Without a path the URI is to stay as it is. -/
def MapsBackFrom (path : Option Text) (uri result : Text) : Prop :=
  match path with
  | none => result = uri
  | some path => MapsBack path uri result

/-- An href is transformed as it is to be. -/
structure TransformsRight (request : Request lookup) (uri : Text) : Prop where
  served : IsServed request.serverHostname (stripPort request.host) →
    (davReposResponseHrefTransform request uri).1 = uri
  mapped : ¬ IsServed request.serverHostname (stripPort request.host) →
    MapsBackFrom (lookup request.host) uri
      (davReposResponseHrefTransform request uri).1

/-! ## Lemmas -/

section Lemmas

variable {path uri rest hostname : Text} {serverHostname : Option Text}

/-- The compared end is too short for a dot and the name. -/
theorem matchesServerName_iff :
    matchesServerName serverHostname hostname = true ↔
      serverHostname = some hostname := by
  cases serverHostname with
  | none => exact iff_of_false Bool.false_ne_true nofun
  | some serverName =>
      rw [matchesServerName, Bool.or_eq_true, beq_iff_eq, Bool.and_eq_true,
        decide_eq_true_eq, beq_iff_eq, Option.some.injEq]
      constructor
      · rintro (rfl | ⟨longer, same⟩)
        · rfl
        · have lengths := congrArg List.length same
          rw [List.length_drop, List.length_cons] at lengths
          omega
      · rintro rfl
        exact Or.inl rfl

theorem withoutPath_of_not_isPrefix
    (absolute : IsAbsolute uri)
    (other : ¬ path <+: uri) :
    withoutPath path uri = uri := by
  have left : resultUri path uri = uri := by
    rw [resultUri, if_neg (by simpa using other)]
  rcases absolute with ⟨rest, rfl⟩
  rw [withoutPath, left]
  rfl

theorem withoutPath_append (path : Text) (filled : rest ≠ []) :
    withoutPath path (path ++ rest) = rest := by
  have left : resultUri path (path ++ rest) = rest := by
    rw [resultUri, if_pos (by simp), List.drop_left]
  rw [withoutPath, left, if_neg (by simpa using filled)]

theorem withoutPath_self (path : Text) :
    withoutPath path path = "/".toList := by
  have left : resultUri path path = [] := by
    rw [resultUri, if_pos (by simp), List.drop_length]
  rw [withoutPath, left]
  rfl

/-- Something is taken off a URI that begins with the path. -/
theorem withoutPath_ne
    (home : "/home/".toList <+: path)
    (isPrefix : path <+: uri) :
    withoutPath path uri ≠ uri := by
  have long : 6 ≤ path.length := home.length_le
  rcases isPrefix with ⟨rest, rfl⟩
  intro same
  have lengths := congrArg List.length same
  cases rest with
  | nil =>
      rw [List.append_nil, withoutPath_self] at lengths
      have slash : ("/".toList).length = 1 := rfl
      omega
  | cons char rest =>
      rw [withoutPath_append path (List.cons_ne_nil char rest),
        List.length_append] at lengths
      omega

/-- What is left is right if a segment ends where the path does. -/
theorem mapsBack_withoutPath_iff
    (absolute : IsAbsolute uri) :
    MapsBack path uri (withoutPath path uri) ↔
      (path <+: uri → IsCut '/' (uri.drop path.length)) := by
  by_cases isPrefix : path <+: uri
  · rcases isPrefix with ⟨rest, rfl⟩
    rw [List.drop_left, imp_iff_right (List.prefix_append path rest)]
    cases rest with
    | nil =>
        rw [List.append_nil, withoutPath_self]
        exact iff_of_true ⟨⟨[], rfl⟩, Or.inl ⟨rfl, rfl⟩⟩ (Or.inl rfl)
    | cons char rest =>
        rw [withoutPath_append path (List.cons_ne_nil char rest)]
        constructor
        · intro mapsBack
          rcases mapsBack.absolute with ⟨later, here⟩
          exact Or.inr ⟨later, here⟩
        · rintro (empty | ⟨later, here⟩)
          · cases empty
          · exact ⟨⟨later, here⟩, Or.inr (Or.inl rfl)⟩
  · rw [withoutPath_of_not_isPrefix absolute isPrefix]
    refine iff_of_true ⟨absolute, Or.inr (Or.inr ⟨?_, ?_, rfl⟩)⟩ ?_
    · rintro rfl
      exact isPrefix List.prefix_rfl
    · rintro ⟨rest, -, rfl⟩
      exact isPrefix (List.prefix_append path rest)
    · intro found
      exact (isPrefix found).elim

end Lemmas

theorem davReposResponseHrefTransform_fst
    (request : Request lookup) (uri : Text) :
    (davReposResponseHrefTransform request uri).1 =
      if request.serverHostname = some (stripPort request.host) then uri
      else
        match lookup request.host with
        | some path => withoutPath path uri
        | none => uri := by
  rw [davReposResponseHrefTransform]
  by_cases named : request.serverHostname = some (stripPort request.host)
  · rw [if_pos (matchesServerName_iff.mpr named), if_pos named]
  · rw [if_neg (fun found => named (matchesServerName_iff.mp found)),
      if_neg named, ← request.path_fst]
    rcases request.path with ⟨path, noted⟩
    cases path with
    | none => rfl
    | some path => rfl

/--
The host is the server, or it is mapped to no path with which the URI begins,
unless the path ends where a segment ends and the host is no subdomain.
-/
def IsMappedRight (request : Request lookup) (uri : Text) : Prop :=
  request.serverHostname = some (stripPort request.host) ∨
    ∀ path, lookup request.host = some path → path <+: uri →
      ¬ IsServed request.serverHostname (stripPort request.host) ∧
        IsCut '/' (uri.drop path.length)

end Transform

/--
For every host, server name, content of the tables and absolute URI, and
whether the path was noted before or not.
-/
theorem transformsRight_iff
    (order : Sql.RowOrder (Principal × UserDomain))
    (tables : DomainTables)
    (request : Request (dbmsGetDomainPath order tables))
    {uri : Text} (absolute : IsAbsolute uri) :
    TransformsRight request uri ↔ IsMappedRight request uri := by
  have result := davReposResponseHrefTransform_fst request uri
  by_cases named : request.serverHostname = some (stripPort request.host)
  · rw [if_pos named] at result
    have served : IsServed request.serverHostname (stripPort request.host) :=
      ⟨stripPort request.host, named, Or.inl rfl⟩
    exact iff_of_true ⟨fun _ => result, fun other => (other served).elim⟩
      (Or.inl named)
  · rw [if_neg named] at result
    rw [IsMappedRight, or_iff_right named]
    cases found : dbmsGetDomainPath order tables request.host with
    | none =>
        rw [found] at result
        refine iff_of_true ⟨fun _ => result, fun _ => ?_⟩ nofun
        rw [found]
        exact result
    | some path =>
        rw [found] at result
        have home := home_isPrefix order tables found
        constructor
        · rintro ⟨served, mapped⟩ other same isPrefix
          rcases Option.some.inj same with rfl
          have notServed : ¬ IsServed request.serverHostname
              (stripPort request.host) := by
            intro isServed
            have kept := served isServed
            rw [result] at kept
            exact withoutPath_ne home isPrefix kept
          have mapsBack := mapped notServed
          rw [found, result] at mapsBack
          exact ⟨notServed, (mapsBack_withoutPath_iff absolute).mp mapsBack
            isPrefix⟩
        · intro right
          constructor
          · intro isServed
            rw [result]
            apply withoutPath_of_not_isPrefix absolute
            intro isPrefix
            exact (right path rfl isPrefix).1 isServed
          · intro _
            rw [found, result]
            apply (mapsBack_withoutPath_iff absolute).mpr
            intro isPrefix
            exact (right path rfl isPrefix).2

/-- One user with one domain. -/
def bobTables : DomainTables where
  userDomains :=
    [⟨1, some 3, some "bob.org".toList, some "/site".toList⟩]
  principals := [⟨3, "bob".toList⟩]

/-- A request for the user's domain. -/
def bobRequest : Request (dbmsGetDomainPath (Sql.RowOrder.stored _) bobTables)
    where
  host := "bob.org".toList
  serverHostname := some "limebits.com".toList
  notes := none
  noted := nofun

theorem transformsRight_bobRequest :
    TransformsRight bobRequest "/home/bob/site/a".toList ↔
      IsMappedRight bobRequest "/home/bob/site/a".toList :=
  transformsRight_iff (Sql.RowOrder.stored _) bobTables bobRequest ⟨_, rfl⟩

/-- A collection whose name extends that of the user's site. -/
theorem not_transformsRight :
    ¬ ∀ (order : Sql.RowOrder (Principal × UserDomain))
        (tables : DomainTables)
        (request : Request (dbmsGetDomainPath order tables)) (uri : Text),
      IsAbsolute uri → TransformsRight request uri := by
  intro transforms
  have right := transforms (Sql.RowOrder.stored _) bobTables bobRequest
    "/home/bob/site2/a".toList ⟨_, rfl⟩
  have notServed : ¬ IsServed bobRequest.serverHostname
      (stripPort bobRequest.host) := by
    rintro ⟨serverName, isName, served⟩
    rcases Option.some.inj isName with rfl
    have lengths : (stripPort bobRequest.host).length <
        ("limebits.com".toList).length := by
      decide
    rcases served with same | isSuffix
    · rw [same] at lengths
      exact lt_irrefl _ lengths
    · have longer := isSuffix.length_le
      rw [List.length_cons] at longer
      omega
  have result : (davReposResponseHrefTransform bobRequest
      "/home/bob/site2/a".toList).1 = "2/a".toList := by
    decide
  have mapsBack := right.mapped notServed
  have found : dbmsGetDomainPath (Sql.RowOrder.stored _) bobTables
      bobRequest.host = some "/home/bob/site".toList := by
    decide
  rw [found, result] at mapsBack
  rcases mapsBack.absolute with ⟨rest, absolute⟩
  have heads := congrArg List.head? absolute
  rw [List.head?_cons] at heads
  exact absurd heads (by decide)

end Limestone.ResponseHref
