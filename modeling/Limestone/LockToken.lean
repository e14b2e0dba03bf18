import Limestone.Schema

/-!
# Lock tokens: `dav_repos_parse_locktoken`

The part of a token behind its scheme is copied without its hyphens into a
buffer for the 32 digits of a UUID.  Nothing is said about the length of that
part when a client sends it, and the copy does not stop at the end of the
buffer.
-/

namespace Limestone.LockToken

/-- A C string: the bytes before its terminator, none of which is zero. -/
structure CString where
  bytes : List UInt8
  noNul : (0 : UInt8) ∉ bytes
deriving DecidableEq, Repr

/-- The bytes of a text in ASCII. -/
def ascii (text : String) : List UInt8 :=
  text.toList.map fun char => UInt8.ofNat char.toNat

/-- The string that a pointer into a string points to. -/
def CString.drop (string : CString) (count : Nat) : CString where
  bytes := string.bytes.drop count
  noNul := fun member => string.noNul (List.mem_of_mem_drop member)

/-! ## The functions -/

/-- An assignment to an element of `buf`. -/
structure Write where
  index : Nat
  byte : UInt8
deriving DecidableEq, Repr

/-- The second index of the loop, and what was assigned so far. -/
structure HyphenLoop where
  j : Nat
  writes : List Write
deriving DecidableEq, Repr

def hyphen : UInt8 := 45

/-- The size of `buf`. -/
def bufSize : Nat := 33

/-- The body of the loop for the next byte of the token. -/
def copyByte (loop : HyphenLoop) (byte : UInt8) : HyphenLoop :=
  if byte ≠ hyphen then
    { j := loop.j + 1, writes := loop.writes ++ [⟨loop.j, byte⟩] }
  else loop

/-- `remove_hyphens_from_uuid`: all assignments to `buf`. -/
def removeHyphensFromUuid (uuid : CString) : List Write :=
  let loop := uuid.bytes.foldl copyByte ⟨0, []⟩
  loop.writes ++ [⟨loop.j, 0⟩]

/-- A `dav_locktoken`, and what making it has written to `buf`. -/
structure ParsedToken where
  /-- `char_uuid` up to its terminator; `none` is NULL. -/
  charUuid : Option (List UInt8)
  writes : List Write
deriving DecidableEq, Repr

def noLockScheme : List UInt8 := ascii "DAV:no-lock"

def opaqueScheme : List UInt8 := ascii "opaquelocktoken:"

/-- `dav_repos_parse_locktoken`. -/
def davReposParseLocktoken (charToken : CString) :
    Except DavError ParsedToken :=
  -- the first occurrence of the scheme is the token itself
  if noLockScheme <+: charToken.bytes then .ok ⟨none, []⟩
  else if opaqueScheme <+: charToken.bytes then
    let writes := removeHyphensFromUuid (charToken.drop 16)
    .ok ⟨some (writes.dropLast.map Write.byte), writes⟩
  else
    .error ⟨httpBadRequest, "The lock token uses an unknown State-token" ++
      " format and could not be parsed."⟩

/-! ## What is written -/

/-- All assignments are to elements of a buffer, one for each at most. -/
structure InBuffer (size : Nat) (writes : List Write) : Prop where
  count : writes.length ≤ size
  inside : ∀ write ∈ writes, write.index < size

/-- The bytes that are kept. -/
def withoutHyphens (bytes : List UInt8) : List UInt8 :=
  bytes.filter fun byte => byte != hyphen

/-- Assignments to elements that follow each other. -/
def consecutive (first : Nat) (bytes : List UInt8) : List Write :=
  (bytes.zipIdx first).map fun entry => ⟨entry.2, entry.1⟩

theorem consecutive_append (first : Nat) (bytes more : List UInt8) :
    consecutive first (bytes ++ more) =
      consecutive first bytes ++ consecutive (first + bytes.length) more := by
  rw [consecutive, List.zipIdx_append, List.map_append]
  rfl

theorem length_consecutive (first : Nat) (bytes : List UInt8) :
    (consecutive first bytes).length = bytes.length := by
  rw [consecutive, List.length_map, List.length_zipIdx]

theorem byte_consecutive (first : Nat) (bytes : List UInt8) :
    (consecutive first bytes).map Write.byte = bytes := by
  rw [consecutive, List.map_map]
  exact List.zipIdx_map_fst first bytes

/-- Bytes that follow each other are in a buffer iff all of them fit. -/
theorem inBuffer_consecutive {size : Nat} {bytes : List UInt8} :
    InBuffer size (consecutive 0 bytes) ↔ bytes.length ≤ size := by
  constructor
  · intro inBuffer
    rw [← length_consecutive 0 bytes]
    exact inBuffer.count
  · intro fits
    constructor
    · rw [length_consecutive]
      exact fits
    · intro write member
      rcases List.mem_map.mp member with ⟨entry, listed, rfl⟩
      have less : entry.2 < 0 + bytes.length :=
        List.snd_lt_add_of_mem_zipIdx listed
      show entry.2 < size
      omega

/-- What the loop has done behind some bytes of the token. -/
theorem foldl_copyByte (bytes : List UInt8) (loop : HyphenLoop) :
    bytes.foldl copyByte loop =
      { j := loop.j + (withoutHyphens bytes).length
        writes := loop.writes ++
          consecutive loop.j (withoutHyphens bytes) } := by
  induction bytes generalizing loop with
  | nil =>
      show loop = ⟨loop.j + 0, loop.writes ++ []⟩
      rw [Nat.add_zero, List.append_nil]
  | cons byte bytes induction =>
      rw [List.foldl_cons, induction, copyByte]
      by_cases skipped : byte = hyphen
      · have same : withoutHyphens (byte :: bytes) = withoutHyphens bytes := by
          simp [withoutHyphens, skipped]
        rw [if_neg (not_not_intro skipped), same]
      · have kept : withoutHyphens (byte :: bytes) =
            [byte] ++ withoutHyphens bytes := by
          simp [withoutHyphens, skipped]
        rw [if_pos skipped, kept, consecutive_append, List.length_append]
        show HyphenLoop.mk _ (loop.writes ++ [⟨loop.j, byte⟩] ++ _) =
          ⟨_, loop.writes ++ ([⟨loop.j, byte⟩] ++ _)⟩
        rw [List.append_assoc, List.length_singleton, Nat.add_assoc]

/-- The bytes without the hyphens and the terminator, one after the other. -/
theorem removeHyphensFromUuid_eq (uuid : CString) :
    removeHyphensFromUuid uuid =
      consecutive 0 (withoutHyphens uuid.bytes ++ [0]) := by
  show (uuid.bytes.foldl copyByte ⟨0, []⟩).writes ++
    [⟨(uuid.bytes.foldl copyByte ⟨0, []⟩).j, 0⟩] = _
  rw [foldl_copyByte, consecutive_append]
  rfl

/-- No token has both schemes. -/
theorem not_noLockScheme
    {bytes : List UInt8}
    (isOpaque : opaqueScheme <+: bytes) :
    ¬ noLockScheme <+: bytes := by
  intro noLock
  have short : noLockScheme <+: opaqueScheme :=
    List.prefix_of_prefix_length_le noLock isOpaque (by decide)
  exact absurd short (by decide)

/-- The token that is made has the bytes that are no hyphens. -/
theorem charUuid_parseLocktoken
    {charToken : CString} {parsed : ParsedToken}
    (accepted : davReposParseLocktoken charToken = .ok parsed)
    (isOpaque : opaqueScheme <+: charToken.bytes) :
    parsed.charUuid = some (withoutHyphens (charToken.bytes.drop 16)) := by
  rw [davReposParseLocktoken] at accepted
  rw [if_neg (not_noLockScheme isOpaque), if_pos isOpaque] at accepted
  rcases Except.ok.inj accepted with rfl
  show some ((removeHyphensFromUuid _).dropLast.map Write.byte) = _
  rw [removeHyphensFromUuid_eq, List.map_dropLast, byte_consecutive,
    List.dropLast_concat]
  rfl

/--
The buffer is not left iff at most 32 bytes of the token behind its scheme are
no hyphens.  A token of the other scheme is not copied.
-/
theorem parseLocktoken_inBuffer_iff
    {charToken : CString} {parsed : ParsedToken}
    (accepted : davReposParseLocktoken charToken = .ok parsed) :
    InBuffer bufSize parsed.writes ↔
      (opaqueScheme <+: charToken.bytes →
        ((charToken.bytes.drop 16).filter
          fun byte => byte != hyphen).length ≤ 32) := by
  rw [davReposParseLocktoken] at accepted
  split at accepted
  · next noLock =>
      rcases Except.ok.inj accepted with rfl
      apply iff_of_true
      · constructor
        · exact Nat.zero_le bufSize
        · intro write member
          cases member
      · intro isOpaque
        exact (not_noLockScheme isOpaque noLock).elim
  · split at accepted
    · next isOpaque =>
        rcases Except.ok.inj accepted with rfl
        rw [removeHyphensFromUuid_eq, inBuffer_consecutive,
          List.length_append, imp_iff_right isOpaque]
        exact Nat.succ_le_succ_iff
    · cases accepted

/-- A lock token as the server hands it out. -/
def wellFormed : CString where
  bytes := ascii "opaquelocktoken:f81d4fae-7dec-11d0-a765-00a0c91e6bf6"
  noNul := by decide

theorem parseLocktoken_inBuffer_wellFormed :
    InBuffer bufSize (removeHyphensFromUuid (wellFormed.drop 16)) :=
  (@parseLocktoken_inBuffer_iff wellFormed _ rfl).mpr fun _ => by decide

/-- A token with one digit more than a UUID has. -/
def longToken : CString where
  bytes := ascii "opaquelocktoken:f81d4fae-7dec-11d0-a765-00a0c91e6bf60"
  noNul := by decide

/-- Accepted tokens can be too long for the buffer. -/
theorem not_parseLocktoken_inBuffer :
    ¬ ∀ charToken parsed, davReposParseLocktoken charToken = .ok parsed →
      InBuffer bufSize parsed.writes := by
  intro inBuffer
  have written := (inBuffer longToken _ rfl).count
  exact absurd written (by decide)

end Limestone.LockToken
