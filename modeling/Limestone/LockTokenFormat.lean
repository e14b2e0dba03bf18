import Limestone.Library.Separators
import Limestone.LockToken
import Mathlib.Data.List.TakeWhile

/-!
# The text of a lock token: `dav_repos_format_locktoken`

Locks are compared by the 32 bytes of `char_uuid`, and clients see a text with
four hyphens in them.  The hyphens are put in by one loop, which reads and
writes at two indices, and taken out by the other.
-/

namespace Limestone.LockTokenFormat

open Library.Separators
open LockToken

/-! ## The functions -/

/-- `string[i]`; what is behind the terminator is not known. -/
def byteAt (string : CString) (i : Nat) : Option UInt8 :=
  (string.bytes ++ [0])[i]?

/-- `formatted_uuid[j++] = byte`. -/
def assign (loop : HyphenLoop) (byte : UInt8) : HyphenLoop where
  j := loop.j + 1
  writes := loop.writes ++ [⟨loop.j, byte⟩]

/-- The indices of a UUID that a hyphen is put before. -/
def isGroupStart (i : Nat) : Bool :=
  i == 8 || i == 12 || i == 16 || i == 20

/-- The body of the loop for the index `i`. -/
def formatByte (uuid : CString) (loop : HyphenLoop) (i : Nat) :
    Option HyphenLoop :=
  let loop := if isGroupStart i then assign loop hyphen else loop
  (byteAt uuid i).map (assign loop)

/-- `APR_UUID_FORMATTED_LENGTH`. -/
def aprUuidFormattedLength : Nat := 36

/-- The number of bytes of a UUID that are shown. -/
def uuidLength : Nat := 32

/--
`add_hyphens_to_uuid`: all assignments to `formatted_uuid`; `none` if it reads
behind the terminator of `uuid`.
-/
def addHyphensToUuid (uuid : CString) : Option (List Write) :=
  ((List.range' 0 uuidLength).foldlM (formatByte uuid) ⟨0, []⟩).map
    HyphenLoop.writes

/-- A buffer of zeros after some assignments. -/
def bufferAfter (size : Nat) (writes : List Write) : List UInt8 :=
  writes.foldl (fun buffer write => buffer.set write.index write.byte)
    (List.replicate size 0)

/-- The string at the front of a buffer. -/
def stringIn (buffer : List UInt8) : CString where
  bytes := buffer.takeWhile fun byte => byte != 0
  noNul := fun member => absurd (List.mem_takeWhile_imp member) (by decide)

/-- `opaquelocktoken:%s`. -/
def opaqueText (formattedUuid : CString) : CString where
  bytes := opaqueScheme ++ formattedUuid.bytes
  noNul := by
    rw [List.mem_append, not_or]
    exact ⟨by decide, formattedUuid.noNul⟩

/--
`dav_repos_format_locktoken`; `none` for a token without a UUID, which is
read, and for one that is too short.
-/
def davReposFormatLocktoken (charUuid : Option CString) : Option CString := do
  let uuid ← charUuid
  let writes ← addHyphensToUuid uuid
  return opaqueText (stringIn (bufferAfter (aprUuidFormattedLength + 1) writes))

/-! ## What is formatted -/

/-- The bytes from the index `i` on with the hyphens before the groups. -/
abbrev grouped (i : Nat) (bytes : List UInt8) : List UInt8 :=
  separate isGroupStart hyphen i bytes

/-- One round writes its byte, and a hyphen before it if a group begins. -/
theorem formatByte_eq
    {uuid : CString} {i : Nat} {byte : UInt8}
    (read : byteAt uuid i = some byte)
    (loop : HyphenLoop) :
    formatByte uuid loop i =
      some
        { j := loop.j + (grouped i [byte]).length
          writes := loop.writes ++ consecutive loop.j (grouped i [byte]) } := by
  unfold grouped
  rw [formatByte, read, separate_cons]
  cases isGroupStart i with
  | false => rfl
  | true =>
      show some (HyphenLoop.mk _ (loop.writes ++ [_] ++ [_])) = _
      rw [List.append_assoc]
      rfl

/-- The loop from the index `i` to the end of some bytes of the UUID. -/
theorem foldlM_formatByte
    {uuid : CString} {i : Nat} {bytes : List UInt8}
    (here : bytes <+: uuid.bytes.drop i)
    (loop : HyphenLoop) :
    (List.range' i bytes.length).foldlM (formatByte uuid) loop =
      some
        { j := loop.j + (grouped i bytes).length
          writes := loop.writes ++ consecutive loop.j (grouped i bytes) } := by
  induction bytes generalizing i loop with
  | nil =>
      show some loop = some ⟨loop.j + 0, loop.writes ++ []⟩
      rw [Nat.add_zero, List.append_nil]
  | cons byte bytes induction =>
      rcases here with ⟨rest, spelled⟩
      have read : byteAt uuid i = some byte := by
        have first : uuid.bytes[i]? = some byte := by
          rw [← List.head?_drop, ← spelled]
          rfl
        rw [byteAt, List.getElem?_append_left
          (List.getElem?_eq_some_iff.mp first).choose]
        exact first
      have next : bytes <+: uuid.bytes.drop (i + 1) := by
        rw [← List.tail_drop, ← spelled]
        exact List.prefix_append bytes rest
      have apart : grouped i (byte :: bytes) =
          grouped i [byte] ++ grouped (i + 1) bytes :=
        separate_append [byte] bytes
      rw [List.length_cons, List.range'_succ, List.foldlM_cons,
        formatByte_eq read]
      show (List.range' (i + 1) bytes.length).foldlM (formatByte uuid) _ = _
      rw [induction next, apart, consecutive_append, List.length_append,
        Nat.add_assoc, List.append_assoc]

/-- A UUID of 32 bytes or more is read, and its first 32 bytes are written. -/
theorem addHyphensToUuid_eq
    {uuid : CString}
    (long : uuidLength ≤ uuid.bytes.length) :
    addHyphensToUuid uuid =
      some (consecutive 0 (grouped 0 (uuid.bytes.take uuidLength))) := by
  have shown : (uuid.bytes.take uuidLength).length = uuidLength :=
    List.length_take_of_le long
  have written := foldlM_formatByte
    (List.take_prefix uuidLength (uuid.bytes.drop 0)) ⟨0, []⟩
  rw [List.drop_zero, shown] at written
  rw [addHyphensToUuid, written]
  rfl

/-- Four hyphens are put between 32 bytes. -/
theorem length_grouped
    {bytes : List UInt8}
    (length : bytes.length = uuidLength) :
    (grouped 0 bytes).length = aprUuidFormattedLength := by
  rw [length_separate, length]
  decide

/-! ## What the buffer holds -/

theorem foldl_set_consecutive (done bytes : List UInt8) (count : Nat) :
    (consecutive done.length bytes).foldl
        (fun buffer write => buffer.set write.index write.byte)
        (done ++ List.replicate (bytes.length + count) 0) =
      done ++ bytes ++ List.replicate count 0 := by
  induction bytes generalizing done with
  | nil =>
      show done ++ List.replicate (0 + count) 0 = done ++ [] ++ _
      rw [Nat.zero_add, List.append_nil]
  | cons byte bytes induction =>
      have room : (byte :: bytes).length + count =
          bytes.length + count + 1 := by
        rw [List.length_cons]
        omega
      have assigned : (done ++ List.replicate (bytes.length + count + 1) 0).set
          done.length byte =
            (done ++ [byte]) ++ List.replicate (bytes.length + count) 0 := by
        rw [List.set_append_right _ _ (Nat.le_refl _), Nat.sub_self,
          List.replicate_succ, List.set_cons_zero, List.append_assoc]
        rfl
      have next := induction (done ++ [byte])
      rw [List.length_append, List.length_singleton] at next
      rw [room]
      show (consecutive (done.length + 1) bytes).foldl _ (List.set _ _ _) = _
      rw [assigned, next, List.append_assoc, List.append_assoc,
        List.append_assoc]
      rfl

/-- The bytes that follow each other, and zeros behind them. -/
theorem bufferAfter_consecutive
    {size : Nat} {bytes : List UInt8}
    (fits : bytes.length ≤ size) :
    bufferAfter size (consecutive 0 bytes) =
      bytes ++ List.replicate (size - bytes.length) 0 := by
  have written := foldl_set_consecutive [] bytes (size - bytes.length)
  rw [Nat.add_sub_cancel' fits] at written
  exact written

theorem bytes_stringIn
    {bytes : List UInt8}
    (noNul : (0 : UInt8) ∉ bytes)
    (count : Nat) :
    (stringIn (bytes ++ List.replicate count 0)).bytes = bytes := by
  have kept : ∀ byte ∈ bytes, (byte != 0) = true := by
    intro byte member
    rw [bne_iff_ne]
    rintro rfl
    exact noNul member
  show (bytes ++ List.replicate count 0).takeWhile _ = bytes
  rw [List.takeWhile_append_of_pos kept, List.takeWhile_replicate]
  exact List.append_nil bytes

/-- The scheme, and the first 32 bytes in groups. -/
theorem davReposFormatLocktoken_eq
    {uuid : CString}
    (long : uuidLength ≤ uuid.bytes.length) :
    ∃ token, davReposFormatLocktoken (some uuid) = some token ∧
      token.bytes = opaqueScheme ++ grouped 0 (uuid.bytes.take uuidLength) := by
  have noNul : (0 : UInt8) ∉ grouped 0 (uuid.bytes.take uuidLength) := by
    intro member
    rcases mem_separate member with isHyphen | listed
    · exact absurd isHyphen (by decide)
    · exact uuid.noNul (List.mem_of_mem_take listed)
  have fits : (grouped 0 (uuid.bytes.take uuidLength)).length ≤
      aprUuidFormattedLength + 1 := by
    rw [length_grouped (List.length_take_of_le long)]
    exact Nat.le_succ _
  refine ⟨opaqueText (stringIn (bufferAfter (aprUuidFormattedLength + 1)
    (consecutive 0 (grouped 0 (uuid.bytes.take uuidLength))))), ?_, ?_⟩
  · show (addHyphensToUuid uuid).bind _ = _
    rw [addHyphensToUuid_eq long]
    rfl
  · rw [bufferAfter_consecutive fits]
    exact congrArg (opaqueScheme ++ ·) (bytes_stringIn noNul _)

/-! ## There and back -/

/-- What is parsed of a text with the scheme, and where it is written. -/
theorem davReposParseLocktoken_of_opaque
    {token : CString} {text : List UInt8}
    (spelled : token.bytes = opaqueScheme ++ text)
    (short : (withoutHyphens text).length ≤ uuidLength) :
    ∃ parsed, davReposParseLocktoken token = .ok parsed ∧
      parsed.charUuid = some (withoutHyphens text) ∧
      InBuffer bufSize parsed.writes := by
  have isOpaque : opaqueScheme <+: token.bytes :=
    ⟨text, spelled.symm⟩
  have behind : (token.drop 16).bytes = text := by
    show token.bytes.drop 16 = text
    rw [spelled]
    exact List.drop_left' rfl
  have accepted : davReposParseLocktoken token =
      .ok ⟨some ((removeHyphensFromUuid (token.drop 16)).dropLast.map
        Write.byte), removeHyphensFromUuid (token.drop 16)⟩ := by
    rw [davReposParseLocktoken, if_neg (not_noLockScheme isOpaque),
      if_pos isOpaque]
  have parsed := charUuid_parseLocktoken accepted isOpaque
  refine ⟨_, accepted, ?_, ?_⟩
  · rw [parsed, ← behind]
    rfl
  · show InBuffer bufSize (removeHyphensFromUuid (token.drop 16))
    rw [removeHyphensFromUuid_eq, inBuffer_consecutive, behind,
      List.length_append]
    exact Nat.succ_le_succ short

/-- A hexadecimal digit. -/
def isHexDigit (byte : UInt8) : Bool :=
  (48 ≤ byte && byte ≤ 57) || (65 ≤ byte && byte ≤ 70) ||
    (97 ≤ byte && byte ≤ 102)

/-- The canonical form: the scheme, and five groups of hexadecimal digits. -/
structure IsCanonical (token : CString) (groups : List (List UInt8)) :
    Prop where
  lengths : groups.map List.length = [8, 4, 4, 4, 12]
  digits : ∀ group ∈ groups, ∀ byte ∈ group, isHexDigit byte
  spelled : token.bytes = opaqueScheme ++ [hyphen].intercalate groups

section Canonical

variable {token : CString} {groups : List (List UInt8)}

/-- Neither a hyphen nor a terminator is in a group. -/
theorem IsCanonical.isHexDigit
    (canonical : IsCanonical token groups)
    {byte : UInt8}
    (member : byte ∈ groups.flatten) :
    isHexDigit byte := by
  rcases List.mem_flatten.mp member with ⟨group, listed, within⟩
  exact canonical.digits group listed byte within

theorem IsCanonical.hyphen_notMem (canonical : IsCanonical token groups) :
    hyphen ∉ groups.flatten := by
  intro member
  exact absurd (canonical.isHexDigit member) (by decide)

/-- The digits of a canonical token, as a string. -/
def IsCanonical.uuid (canonical : IsCanonical token groups) : CString where
  bytes := groups.flatten
  noNul := fun member => absurd (canonical.isHexDigit member) (by decide)

theorem IsCanonical.length_flatten (canonical : IsCanonical token groups) :
    groups.flatten.length = uuidLength := by
  rw [List.length_flatten, canonical.lengths]
  rfl

/-- The groups are those that the hyphens are put between. -/
theorem IsCanonical.grouped_flatten (canonical : IsCanonical token groups) :
    grouped 0 groups.flatten = [hyphen].intercalate groups := by
  have lengths := canonical.lengths
  cases groups with
  | nil => exact absurd lengths (by decide)
  | cons first groups =>
      rw [List.map_cons, List.cons.injEq] at lengths
      apply separate_eq_intercalate
      · intro index _ upper
        rw [lengths.1, Nat.zero_add] at upper
        revert index
        decide
      · rw [lengths.1, lengths.2]
        decide

end Canonical

/--
A UUID without hyphens is parsed from its text again, and a token in canonical
form is formatted again from what is parsed.
-/
theorem lockToken_roundTrip :
    (∀ uuid : CString, uuid.bytes.length = 32 → hyphen ∉ uuid.bytes →
      ∃ token parsed, davReposFormatLocktoken (some uuid) = some token ∧
        davReposParseLocktoken token = .ok parsed ∧
        parsed.charUuid = some uuid.bytes ∧
        InBuffer bufSize parsed.writes) ∧
    ∀ (token : CString) (groups : List (List UInt8)),
      IsCanonical token groups →
        ∃ parsed uuid, davReposParseLocktoken token = .ok parsed ∧
          parsed.charUuid = some uuid.bytes ∧
          InBuffer bufSize parsed.writes ∧
          davReposFormatLocktoken (some uuid) = some token := by
  constructor
  · intro uuid length absent
    rcases davReposFormatLocktoken_eq (Nat.le_of_eq length.symm) with
      ⟨token, formatted, spelled⟩
    have whole : uuid.bytes.take uuidLength = uuid.bytes :=
      List.take_of_length_le (Nat.le_of_eq length)
    rw [whole] at spelled
    have stripped : withoutHyphens (grouped 0 uuid.bytes) = uuid.bytes :=
      filter_separate absent
    rcases davReposParseLocktoken_of_opaque spelled
      (stripped.symm ▸ Nat.le_of_eq length) with
      ⟨parsed, accepted, isUuid, fits⟩
    exact ⟨token, parsed, formatted, accepted, stripped ▸ isUuid, fits⟩
  · intro token groups canonical
    have stripped : withoutHyphens ([hyphen].intercalate groups) =
        groups.flatten := by
      rw [← canonical.grouped_flatten]
      exact filter_separate canonical.hyphen_notMem
    rcases davReposParseLocktoken_of_opaque canonical.spelled
      (stripped.symm ▸ Nat.le_of_eq canonical.length_flatten) with
      ⟨parsed, accepted, isUuid, fits⟩
    rw [stripped] at isUuid
    rcases davReposFormatLocktoken_eq
      (Nat.le_of_eq canonical.length_flatten.symm :
        uuidLength ≤ canonical.uuid.bytes.length) with
      ⟨formatted, isFormatted, spelled⟩
    have same : formatted = token := by
      have whole : canonical.uuid.bytes.take uuidLength = groups.flatten :=
        List.take_of_length_le (Nat.le_of_eq canonical.length_flatten)
      rw [whole, canonical.grouped_flatten, ← canonical.spelled] at spelled
      cases formatted
      cases token
      congr
    exact ⟨parsed, canonical.uuid, accepted, isUuid, fits, same ▸ isFormatted⟩

/-- The groups of a token as the server hands it out. -/
def wellFormedGroups : List (List UInt8) :=
  [ascii "f81d4fae", ascii "7dec", ascii "11d0", ascii "a765",
    ascii "00a0c91e6bf6"]

theorem isCanonical_wellFormed : IsCanonical wellFormed wellFormedGroups where
  lengths := by decide
  digits := by
    have all : (wellFormedGroups.all fun group => group.all isHexDigit) =
        true := by
      decide
    intro group listed byte member
    exact List.all_eq_true.mp (List.all_eq_true.mp all group listed) byte member
  spelled := by decide

theorem lockToken_roundTrip_wellFormed :
    (∃ token parsed,
      davReposFormatLocktoken (some isCanonical_wellFormed.uuid) =
          some token ∧
        davReposParseLocktoken token = .ok parsed ∧
        parsed.charUuid = some isCanonical_wellFormed.uuid.bytes ∧
        InBuffer bufSize parsed.writes) ∧
    ∃ parsed uuid, davReposParseLocktoken wellFormed = .ok parsed ∧
      parsed.charUuid = some uuid.bytes ∧
      InBuffer bufSize parsed.writes ∧
      davReposFormatLocktoken (some uuid) = some wellFormed :=
  ⟨lockToken_roundTrip.1 isCanonical_wellFormed.uuid (by decide) (by decide),
    lockToken_roundTrip.2 wellFormed _ isCanonical_wellFormed⟩

end Limestone.LockTokenFormat
