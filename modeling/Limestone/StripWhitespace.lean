import Limestone.Library.Loop
import Limestone.Library.TracedMemory
import Limestone.Library.Trim
import Limestone.LockToken

/-!
# Text without the blanks around it: `strip_whitespace`

One loop writes terminators over the whitespace at the end of a string, and
another takes the pointer past the whitespace at its front.  The first loop
tests its index after it has read with it.  Its index is an `int`, and the
length of the string is a `size_t`.
-/

namespace Limestone.StripWhitespace

open Library
open Library.TracedMemory
open Library.Trim
open LockToken (CString)

/-! ## The function -/

/-- `isspace` in the C locale. -/
def isspace (byte : UInt8) : Bool :=
  byte == 32 || (9 ≤ byte && byte ≤ 13)

/-- The value of an `int` that a `size_t` is assigned to. -/
@[irreducible]
def asInt (size : Nat) : Int :=
  (size : Int).bmod (2 ^ 32)

/-- `INT_MIN`. -/
def intMin : Int := -2 ^ 31

/-- The variables of the first loop. -/
structure TrailingLoop where
  len : Int
  traced : Traced UInt8

/-- The condition of the first loop, and its body. -/
def stripTrailing (loop : TrailingLoop) :
    Option (Traced UInt8) ⊕ TrailingLoop :=
  -- `--len` overflows
  if loop.len = intMin then .inl none
  else
    let len := loop.len - 1
    let (byte, traced) := loop.traced.load len
    if isspace byte && 0 ≤ len then .inr ⟨len, traced.store len 0⟩
    else .inl (some traced)

/-- The variables of the second loop. -/
structure LeadingLoop where
  data : Int
  traced : Traced UInt8

/-- The condition of the second loop, and its body. -/
def skipLeading (loop : LeadingLoop) : LeadingLoop ⊕ LeadingLoop :=
  let (byte, traced) := loop.traced.load loop.data
  if byte = 0 then .inl ⟨loop.data, traced⟩
  else
    let (byte, traced) := traced.load loop.data
    if isspace byte then .inr ⟨loop.data + 1, traced⟩
    else .inl ⟨loop.data, traced⟩

/-- What `strlen` reads. -/
def readThrough (traced : Traced UInt8) (text : List UInt8) : Traced UInt8 :=
  { traced with
    accessed := traced.accessed ++
      (List.range (text.length + 1)).map Int.ofNat }

/-- The pointer that is returned, and the memory then. -/
structure Returned where
  /-- The distance from the string; `none` is NULL. -/
  data : Option Int
  traced : Traced UInt8

/-- The assignment to `len`, and both loops. -/
def stripMeasured (string : CString) (measured : Traced UInt8) :
    Option Returned := do
  let rounds := string.bytes.length + 1
  let stripped ← (Loop.run stripTrailing rounds
    ⟨asInt string.bytes.length, measured⟩).join
  let loop ← Loop.run skipLeading rounds ⟨0, stripped⟩
  return ⟨some loop.data, loop.traced⟩

/--
`strip_whitespace` for a string at the address 0; `none` after an overflow,
and would be a loop that goes on.
-/
def stripWhitespace (outside : Int → UInt8) :
    Option CString → Option Returned
  | none => some ⟨none, ⟨outside, []⟩⟩
  | some string =>
      let placed : Traced UInt8 := ⟨placed 0 outside string.bytes, []⟩
      let (first, traced) := placed.load 0
      if first = 0 then some ⟨some 0, traced⟩
      else stripMeasured string (readThrough traced string.bytes)

/-! ## What is to hold -/

/-- No byte outside the string is accessed, and what is returned is trimmed. -/
structure IsStripped (string : CString) (returned : Returned) : Prop where
  inside : ∀ address ∈ returned.traced.accessed,
    0 ≤ address ∧ address ≤ string.bytes.length
  trimmed : ∃ start, returned.data = some start ∧
    HoldsText 0 returned.traced.memory start (trim isspace string.bytes)

/-- The function returns, and has stripped the string. -/
def Strips (outside : Int → UInt8) (string : CString) : Prop :=
  ∃ returned, stripWhitespace outside (some string) = some returned ∧
    IsStripped string returned

/-- The bytes before the index that the first loop begins with. -/
def measured (bytes : List UInt8) : List UInt8 :=
  bytes.take (asInt bytes.length).toNat

/-- The bytes from that index on. -/
def unmeasured (bytes : List UInt8) : List UInt8 :=
  bytes.drop (asInt bytes.length).toNat

/--
What is measured is not all whitespace.  If it ends in whitespace, then there
is nothing else behind it, and if not, the string does not end in whitespace.
-/
structure CanStrip (bytes : List UInt8) : Prop where
  kept : ∃ byte ∈ measured bytes, isspace byte = false
  behind : endsIn isspace (measured bytes) → (unmeasured bytes).all isspace
  atEnd : endsIn isspace bytes → endsIn isspace (measured bytes)

/-! ## Lengths -/

theorem asInt_of_short
    {size : Nat}
    (short : size < 2 ^ 31) :
    asInt size = size := by
  unfold asInt
  apply Int.bmod_eq_of_le_mul_two
  · omega
  · omega

theorem bmod_le_natCast (size modulus : Nat) :
    (size : Int).bmod modulus ≤ size := by
  have remainder : (size : Int) % modulus ≤ size := by
    rw [← Int.natCast_mod]
    exact Int.ofNat_le.mpr (Nat.mod_le size modulus)
  rw [Int.bmod_def]
  split
  · exact remainder
  · omega

theorem asInt_le (size : Nat) : asInt size ≤ size := by
  unfold asInt
  exact bmod_le_natCast size _

theorem measured_append_unmeasured (bytes : List UInt8) :
    measured bytes ++ unmeasured bytes = bytes :=
  List.take_append_drop _ bytes

theorem length_measured
    {bytes : List UInt8}
    (nonnegative : 0 ≤ asInt bytes.length) :
    ((measured bytes).length : Int) = asInt bytes.length := by
  have le := asInt_le bytes.length
  rw [measured, List.length_take, Nat.min_eq_left (by omega),
    Int.toNat_of_nonneg nonnegative]

/-- Strings of less than 2^31 bytes can be stripped unless all is whitespace. -/
theorem canStrip_iff_of_short
    {bytes : List UInt8}
    (short : bytes.length < 2 ^ 31) :
    CanStrip bytes ↔ ∃ byte ∈ bytes, isspace byte = false := by
  have whole : measured bytes = bytes := by
    rw [measured, asInt_of_short short, Int.toNat_natCast, List.take_length]
  have nothing : unmeasured bytes = [] := by
    rw [unmeasured, asInt_of_short short, Int.toNat_natCast, List.drop_length]
  constructor
  · intro canStrip
    exact whole ▸ canStrip.kept
  · intro kept
    constructor
    · rw [whole]
      exact kept
    · intro _
      rw [nothing]
      rfl
    · intro ends
      rw [whole]
      exact ends

/-! ## The loops -/

section Loops

variable {traced : Traced UInt8}

/-- A byte of the string is read, and overwritten if it is whitespace. -/
theorem stripTrailing_of_holds
    {front rest : List UInt8} {byte : UInt8}
    (holds : HoldsText 0 traced.memory 0 (front ++ byte :: rest)) :
    stripTrailing ⟨(front.length : Int) + 1, traced⟩ =
      if isspace byte then
        .inr ⟨front.length, (traced.load front.length).2.store front.length 0⟩
      else .inl (some (traced.load front.length).2) := by
  have read : traced.memory front.length = byte := by
    have there := holds.cell_of_append
    rw [Int.zero_add] at there
    exact there
  have noOverflow : (front.length : Int) + 1 ≠ intMin := by
    unfold intMin
    omega
  have before : (front.length : Int) + 1 - 1 = front.length := by omega
  have nonnegative : (0 : Int) ≤ front.length := Int.natCast_nonneg _
  unfold stripTrailing
  rw [if_neg noOverflow, before]
  simp only [Traced.load, read, nonnegative, decide_true, Bool.and_true]

/-- An index that is not positive is read below the string. -/
theorem stripTrailing_of_nonpos
    {len : Int}
    (nonpositive : len ≤ 0) :
    stripTrailing ⟨len, traced⟩ =
      .inl (if len = intMin then none else some (traced.load (len - 1)).2) := by
  have isFalse : decide (0 ≤ len - 1) = false :=
    decide_eq_false (by omega)
  show (if len = intMin then _
    else if (isspace _ && decide (0 ≤ len - 1)) = true then _ else _) = _
  rw [isFalse, Bool.and_false, if_neg Bool.false_ne_true]
  split
  · rfl
  · rfl

/-- What is left of a string whose front is measured. -/
def leftOf (front rest : List UInt8) : List UInt8 :=
  if endsIn isspace front then front.rdropWhile isspace else front ++ rest

theorem leftOf_nil (front : List UInt8) :
    leftOf front [] = front.rdropWhile isspace := by
  rw [leftOf, List.append_nil]
  split
  · rfl
  next notEnding =>
      rw [Bool.not_eq_true] at notEnding
      exact (rdropWhile_of_not_endsIn notEnding).symm

theorem length_leftOf_le (front rest : List UInt8) :
    (leftOf front rest).length ≤ (front ++ rest).length := by
  unfold leftOf
  split
  · exact ((List.rdropWhile_prefix isspace front).trans
      (List.prefix_append front rest)).length_le
  · exact Nat.le_refl _

/-- The addresses that the first loop may access. -/
def Visited (front : List UInt8) (address : Int) : Prop :=
  (0 ≤ address ∧ address < front.length) ∨
    (address = -1 ∧ front.all isspace = true)

/-- The first loop over the measured bytes. -/
theorem run_stripTrailing
    {front rest : List UInt8} {fuel : Nat}
    (holds : HoldsText 0 traced.memory 0 (front ++ rest))
    (enough : front.length < fuel) :
    ∃ after, Loop.run stripTrailing fuel ⟨front.length, traced⟩ =
        some (some after) ∧
      HoldsText 0 after.memory 0 (leftOf front rest) ∧
      Adds (Visited front) traced after ∧
      (front.all isspace = true → -1 ∈ after.accessed) := by
  induction front using List.reverseRecOn generalizing rest traced fuel with
  | nil =>
      rcases Nat.exists_eq_add_one_of_ne_zero (Nat.ne_zero_of_lt enough) with
        ⟨fuel, rfl⟩
      refine ⟨(traced.load (-1)).2, ?_, holds, ?_, ?_⟩
      · show Loop.run stripTrailing (fuel + 1) ⟨0, traced⟩ = _
        rw [Loop.run, stripTrailing_of_nonpos (Int.le_refl 0)]
        rfl
      · exact adds_of_accessed rfl (Or.inr ⟨rfl, rfl⟩)
      · exact fun _ => List.mem_append_right _ (List.mem_singleton_self _)
  | append_singleton front byte induction =>
      rw [List.length_append, List.length_singleton] at enough
      rcases Nat.exists_eq_add_one_of_ne_zero (Nat.ne_zero_of_lt enough) with
        ⟨fuel, rfl⟩
      rw [List.append_assoc, List.singleton_append] at holds
      have pass := stripTrailing_of_holds holds
      have here : Visited (front ++ [byte]) front.length := by
        left
        rw [List.length_append, List.length_singleton]
        omega
      rw [List.length_append, List.length_singleton, Int.natCast_succ, Loop.run,
        pass]
      cases isSpace : isspace byte with
      | false =>
          refine ⟨(traced.load front.length).2, rfl, ?_, ?_, ?_⟩
          · rw [leftOf, endsIn_concat, isSpace, if_neg Bool.false_ne_true,
              List.append_assoc]
            exact holds
          · exact adds_of_accessed rfl here
          · intro all
            rw [List.all_append, List.all_cons, isSpace, Bool.false_and,
              Bool.and_false] at all
            exact (Bool.false_ne_true all).elim
      | true =>
          have cut : HoldsText 0
              ((traced.load front.length).2.store front.length 0).memory 0
              (front ++ []) := by
            rw [List.append_nil]
            have ended := holds.cut
            rw [Int.zero_add] at ended
            exact ended
          rcases induction cut (Nat.lt_of_succ_lt_succ enough) with
            ⟨after, stopped, left, adds, whole⟩
          have stored : Adds (Visited (front ++ [byte])) traced
              ((traced.load front.length).2.store front.length 0) :=
            (adds_of_accessed rfl here : Adds _ traced
              (traced.load front.length).2).trans (adds_of_accessed rfl here)
          refine ⟨after, stopped, ?_, stored.trans (adds.mono ?_), ?_⟩
          · rw [leftOf, endsIn_concat, isSpace, if_pos rfl,
              List.rdropWhile_concat_pos _ _ _ isSpace]
            exact leftOf_nil front ▸ left
          · rintro address (⟨lower, upper⟩ | ⟨isBefore, all⟩)
            · left
              rw [List.length_append]
              omega
            · right
              rw [List.all_append, all, List.all_cons, isSpace]
              exact ⟨isBefore, rfl⟩
          · intro all
            rw [List.all_append, Bool.and_eq_true] at all
            exact whole all.1

/-- One round of the second loop, where a byte is read twice. -/
theorem skipLeading_eq (start : Int) :
    skipLeading ⟨start, traced⟩ =
      if traced.memory start = 0 then .inl ⟨start, (traced.load start).2⟩
      else if isspace (traced.memory start) then
        .inr ⟨start + 1, ((traced.load start).2.load start).2⟩
      else .inl ⟨start, ((traced.load start).2.load start).2⟩ :=
  rfl

/-- The second loop goes to the first byte that is no whitespace. -/
theorem run_skipLeading
    {text : List UInt8} {start : Int} {fuel : Nat}
    (holds : HoldsText 0 traced.memory start text)
    (enough : text.length < fuel) :
    ∃ loop, Loop.run skipLeading fuel ⟨start, traced⟩ = some loop ∧
      HoldsText 0 loop.traced.memory loop.data (text.dropWhile isspace) ∧
      Adds (fun address => start ≤ address ∧ address ≤ start + text.length)
        traced loop.traced := by
  rcases Nat.exists_eq_add_one_of_ne_zero (Nat.ne_zero_of_lt enough) with
    ⟨fuel, rfl⟩
  induction text generalizing start traced fuel with
  | nil =>
      have zero : traced.memory start = 0 := holds.first
      have stops : skipLeading ⟨start, traced⟩ =
          .inl ⟨start, (traced.load start).2⟩ := by
        rw [skipLeading_eq, if_pos zero]
      refine ⟨⟨start, (traced.load start).2⟩, ?_, holds, ?_⟩
      · rw [Loop.run, stops]
      · apply adds_of_accessed rfl
        rw [List.length_nil]
        omega
  | cons byte text induction =>
      have first : traced.memory start = byte := holds.first
      have notZero : byte ≠ 0 := by
        rintro rfl
        exact holds.noNul List.mem_cons_self
      let again := ((traced.load start).2.load start).2
      have pass : skipLeading ⟨start, traced⟩ =
          if isspace byte then .inr ⟨start + 1, again⟩
          else .inl ⟨start, again⟩ := by
        rw [skipLeading_eq, first, if_neg notZero]
      have here : start ≤ start ∧ start ≤ start + (byte :: text).length := by
        rw [List.length_cons]
        omega
      have read : Adds (fun address =>
          start ≤ address ∧ address ≤ start + (byte :: text).length)
          traced again :=
        (adds_of_accessed rfl here : Adds _ traced (traced.load start).2).trans
          (adds_of_accessed rfl here)
      rw [Loop.run, pass, List.dropWhile_cons]
      cases isSpace : isspace byte with
      | false => exact ⟨⟨start, again⟩, rfl, holds, read⟩
      | true =>
          rw [List.length_cons] at enough
          rcases Nat.exists_eq_add_one_of_ne_zero
            (Nat.ne_zero_of_lt (Nat.lt_of_succ_lt_succ enough)) with
            ⟨fuel, rfl⟩
          have next : HoldsText 0 again.memory (start + 1) text := holds.tail
          rcases induction next fuel (Nat.lt_of_succ_lt_succ enough) with
            ⟨loop, stopped, left, adds⟩
          refine ⟨loop, stopped, left, read.trans (adds.mono ?_)⟩
          intro address inside
          rw [List.length_cons]
          omega

/-- Wherever the second loop begins, what was accessed stays noted. -/
theorem accessed_of_run_skipLeading
    {start address : Int} {fuel : Nat} {loop : LeadingLoop}
    (stopped : Loop.run skipLeading fuel ⟨start, traced⟩ = some loop)
    (accessed : address ∈ traced.accessed) :
    address ∈ loop.traced.accessed := by
  have stays (before after : LeadingLoop)
      (noted : address ∈ before.traced.accessed)
      (pass : skipLeading before = .inl after ∨
        skipLeading before = .inr after) :
      address ∈ after.traced.accessed := by
    rw [skipLeading_eq] at pass
    split at pass
    · rcases pass with left | next
      · rcases Sum.inl.inj left with rfl
        exact List.mem_append_left _ noted
      · cases next
    · have twice := List.mem_append_left [before.data]
        (List.mem_append_left [before.data] noted)
      split at pass
      · rcases pass with left | next
        · cases left
        · rcases Sum.inr.inj next with rfl
          exact twice
      · rcases pass with left | next
        · rcases Sum.inl.inj left with rfl
          exact twice
        · cases next
  exact Loop.run_induct (I := fun loop => address ∈ loop.traced.accessed)
    (P := fun loop => address ∈ loop.traced.accessed)
    (fun before after noted pass => stays before after noted (Or.inl pass))
    (fun before after noted pass => stays before after noted (Or.inr pass))
    accessed stopped

/-- An index below zero is read with, or the first decrement overflows. -/
theorem run_stripTrailing_of_neg
    {len : Int} {fuel : Nat} {after : Traced UInt8}
    (negative : len < 0)
    (stopped : Loop.run stripTrailing (fuel + 1) ⟨len, traced⟩ =
      some (some after)) :
    len - 1 ∈ after.accessed := by
  rw [Loop.run, stripTrailing_of_nonpos (Int.le_of_lt negative)] at stopped
  have read := Option.some.inj stopped
  split at read
  · cases read
  · rw [← Option.some.inj read]
    exact List.mem_append_right _ (List.mem_singleton_self _)

end Loops

/-! ## The whole function -/

section Function

variable {outside : Int → UInt8} {string : CString} {returned : Returned}

/-- The memory when the string has been measured. -/
def measuredMemory (outside : Int → UInt8) (string : CString) :
    Traced UInt8 :=
  readThrough ((⟨placed 0 outside string.bytes, []⟩ : Traced UInt8).load 0).2
    string.bytes

theorem inside_measuredMemory :
    ∀ address ∈ (measuredMemory outside string).accessed,
      0 ≤ address ∧ address ≤ string.bytes.length := by
  intro address member
  rcases List.mem_append.mp member with first | later
  · rcases List.mem_singleton.mp first with rfl
    omega
  · rcases List.mem_map.mp later with ⟨i, listed, rfl⟩
    rw [List.mem_range] at listed
    show (0 : Int) ≤ i ∧ (i : Int) ≤ _
    omega

theorem stripWhitespace_of_nil
    (empty : string.bytes = []) :
    Strips outside string := by
  have holds := holdsText_placed outside string.noNul
  have zero : placed 0 outside string.bytes 0 = 0 := by
    rw [holds.first, empty]
    rfl
  refine ⟨⟨some 0, ((⟨placed 0 outside string.bytes, []⟩ :
    Traced UInt8).load 0).2⟩, ?_, ?_, 0, rfl, ?_⟩
  · unfold stripWhitespace
    exact if_pos zero
  · intro address member
    rcases List.mem_singleton.mp member with rfl
    omega
  · rw [empty] at holds ⊢
    exact holds

/-- A string that is not empty goes through both loops. -/
theorem stripWhitespace_eq
    (inhabited : string.bytes ≠ []) :
    stripWhitespace outside (some string) =
      stripMeasured string (measuredMemory outside string) := by
  have notZero : placed 0 outside string.bytes 0 ≠ 0 := by
    rw [(holdsText_placed outside string.noNul).first]
    cases spelled : string.bytes with
    | nil => exact (inhabited spelled).elim
    | cons byte bytes =>
        rintro (rfl : byte = 0)
        exact string.noNul (spelled ▸ List.mem_cons_self)
  unfold stripWhitespace
  exact if_neg notZero

/-- An index that is not negative: what both loops leave, and access. -/
theorem stripMeasured_of_nonneg
    (outside : Int → UInt8)
    (nonnegative : 0 ≤ asInt string.bytes.length) :
    ∃ start after, stripMeasured string (measuredMemory outside string) =
        some ⟨some start, after⟩ ∧
      HoldsText 0 after.memory start
        ((leftOf (measured string.bytes) (unmeasured string.bytes)).dropWhile
          isspace) ∧
      (∀ address ∈ after.accessed,
        (0 ≤ address ∧ address ≤ string.bytes.length) ∨
          Visited (measured string.bytes) address) ∧
      ((measured string.bytes).all isspace = true → -1 ∈ after.accessed) := by
  have holds : HoldsText 0 (measuredMemory outside string).memory 0
      (measured string.bytes ++ unmeasured string.bytes) := by
    rw [measured_append_unmeasured]
    exact holdsText_placed outside string.noNul
  have shorter : (measured string.bytes).length < string.bytes.length + 1 :=
    Nat.lt_succ_of_le (List.length_take_le' _ _)
  rcases run_stripTrailing holds shorter with
    ⟨stripped, stopped, left, adds, whole⟩
  have le : (leftOf (measured string.bytes)
      (unmeasured string.bytes)).length ≤ string.bytes.length := by
    have longest := length_leftOf_le (measured string.bytes)
      (unmeasured string.bytes)
    rw [measured_append_unmeasured] at longest
    exact longest
  rcases run_skipLeading left (Nat.lt_succ_of_le le) with
    ⟨loop, skipped, result, more⟩
  refine ⟨loop.data, loop.traced, ?_, result, ?_, ?_⟩
  · rw [length_measured nonnegative] at stopped
    show (Loop.run stripTrailing _ _).join.bind _ = _
    rw [stopped]
    show (Loop.run skipLeading _ ⟨0, stripped⟩).bind _ = _
    rw [skipped]
    rfl
  · intro address member
    rcases more.added address member with earlier | inside
    · rcases adds.added address earlier with first | visited
      · exact Or.inl (inside_measuredMemory address first)
      · exact Or.inr visited
    · left
      omega
  · exact fun all => more.kept _ (whole all)

/-- An index below zero: the first loop reads below the string. -/
theorem exists_neg_of_stripMeasured
    (negative : asInt string.bytes.length < 0)
    (stripped : stripMeasured string (measuredMemory outside string) =
      some returned) :
    ∃ address ∈ returned.traced.accessed, address < 0 := by
  rcases Option.bind_eq_some_iff.mp stripped with ⟨after, stopped, rest⟩
  rcases Option.bind_eq_some_iff.mp rest with ⟨loop, skipped, last⟩
  rcases Option.some.inj last with rfl
  have read := run_stripTrailing_of_neg negative
    (Option.join_eq_some_iff.mp stopped)
  exact ⟨_, accessed_of_run_skipLeading skipped read, by omega⟩

/-- The text that the loops leave is the trimmed one. -/
theorem dropWhile_leftOf_iff
    {front rest : List UInt8}
    (kept : ∃ byte ∈ front, isspace byte = false) :
    (leftOf front rest).dropWhile isspace = trim isspace (front ++ rest) ↔
      (endsIn isspace front → rest.all isspace) ∧
        (endsIn isspace (front ++ rest) → endsIn isspace front) := by
  unfold leftOf
  cases ends : endsIn isspace front with
  | true =>
      rw [if_pos rfl, dropWhile_rdropWhile_eq_trim_append_iff kept ends]
      constructor
      · exact fun all => ⟨fun _ => all, fun _ => rfl⟩
      · exact fun both => both.1 rfl
  | false =>
      rcases kept with ⟨byte, member, isKept⟩
      rw [if_neg Bool.false_ne_true, dropWhile_eq_trim_iff
        ⟨byte, List.mem_append_left rest member, isKept⟩,
        ← Bool.not_eq_true]
      constructor
      · intro notEnding
        exact ⟨fun isFalse => (Bool.false_ne_true isFalse).elim,
          fun isTrue => (notEnding isTrue).elim⟩
      · exact fun both isTrue => Bool.false_ne_true (both.2 isTrue)

theorem strips_iff_canStrip
    (outside : Int → UInt8)
    (string : CString) :
    Strips outside string ↔ string.bytes = [] ∨ CanStrip string.bytes := by
  by_cases empty : string.bytes = []
  · exact iff_of_true (stripWhitespace_of_nil empty) (Or.inl empty)
  rw [or_iff_right empty]
  have whole := measured_append_unmeasured string.bytes
  by_cases negative : asInt string.bytes.length < 0
  · apply iff_of_false
    · rintro ⟨returned, called, isStripped⟩
      rw [stripWhitespace_eq empty] at called
      rcases exists_neg_of_stripMeasured negative called with
        ⟨address, accessed, below⟩
      have inside := isStripped.inside address accessed
      omega
    · intro canStrip
      have nothing : measured string.bytes = [] := by
        rw [measured, Int.toNat_of_nonpos (Int.le_of_lt negative),
          List.take_zero]
      rcases canStrip.kept with ⟨byte, member, -⟩
      rw [nothing] at member
      cases member
  · rcases stripMeasured_of_nonneg outside (Int.not_lt.mp negative) with
      ⟨start, after, ran, left, visited, below⟩
    constructor
    · rintro ⟨returned, called, isStripped⟩
      rw [stripWhitespace_eq empty, ran] at called
      rcases Option.some.inj called with rfl
      have kept : ∃ byte ∈ measured string.bytes, isspace byte = false := by
        by_contra none
        have all : (measured string.bytes).all isspace = true := by
          rw [List.all_eq_true]
          intro byte member
          by_contra notSpace
          exact none ⟨byte, member, Bool.not_eq_true _ ▸ notSpace⟩
        have inside := isStripped.inside (-1) (below all)
        omega
      rcases isStripped.trimmed with ⟨other, same, trimmed⟩
      rcases Option.some.inj same with rfl
      have text := left.unique trimmed
      have both := (dropWhile_leftOf_iff kept).mp
        (text.trans (congrArg (trim isspace) whole.symm))
      rw [whole] at both
      exact ⟨kept, both.1, both.2⟩
    · intro canStrip
      refine ⟨⟨some start, after⟩, (stripWhitespace_eq empty).trans ran, ?_,
        start, rfl, ?_⟩
      · intro address accessed
        have le := List.length_take_le' (asInt string.bytes.length).toNat
          string.bytes
        rcases visited address accessed with inside | inside | ⟨-, all⟩
        · exact inside
        · unfold measured at inside
          show 0 ≤ address ∧ address ≤ string.bytes.length
          omega
        · rcases canStrip.kept with ⟨byte, member, isKept⟩
          have isSpace := List.all_eq_true.mp all byte member
          exact (Bool.false_ne_true (isKept.symm.trans isSpace)).elim
      · have text := (dropWhile_leftOf_iff canStrip.kept).mpr
          ⟨canStrip.behind, whole.symm ▸ canStrip.atEnd⟩
        rw [whole] at text
        exact text ▸ left

end Function

/--
The function strips a string, and accesses no byte outside of it, iff the
string is empty or can be stripped.  A string of less than 2^31 bytes can be
stripped iff it is not all whitespace.
-/
theorem strips_iff
    (outside : Int → UInt8)
    (string : CString) :
    (Strips outside string ↔ string.bytes = [] ∨ CanStrip string.bytes) ∧
      (string.bytes.length < 2 ^ 31 →
        (CanStrip string.bytes ↔
          ∃ byte ∈ string.bytes, isspace byte = false)) :=
  ⟨strips_iff_canStrip outside string, canStrip_iff_of_short⟩

/-- A string of one blank. -/
def blank : CString where
  bytes := [32]
  noNul := by decide

/-- The byte before a string of blanks is read. -/
theorem not_strips : ¬ ∀ outside string, Strips outside string := by
  intro strips
  rcases (strips_iff_canStrip (fun _ => 0) blank).mp (strips _ blank) with
    empty | canStrip
  · exact absurd empty (by decide)
  · have kept := (canStrip_iff_of_short (by decide)).mp canStrip
    exact absurd kept (by decide)

end Limestone.StripWhitespace
