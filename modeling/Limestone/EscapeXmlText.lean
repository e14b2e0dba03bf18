import Limestone.Schema
import Mathlib.Data.List.TakeWhile

/-!
# Escaping by `adduser`: `escape_xml_text`

Entities are appended to the buffer by the library that the buffer is from,
which makes room for them.  Other characters are assigned to the memory behind
the text, for which nobody makes room, and the terminator is not written before
the library is told to look for it.
-/

namespace Limestone.EscapeXmlText

/-! ## Buffers -/

/-- The lengths that the library allocates. -/
structure Neon where
  created : Nat
  /-- For a buffer of the first length and a text that needs the second. -/
  grown : Nat → Nat → Nat
  created_pos : 0 < created
  needed_le : ∀ length needed, needed ≤ grown length needed
  length_le : ∀ length needed, length ≤ grown length needed

/-- An `ne_buffer`, with all that was allocated for `data`. -/
structure NeBuffer where
  data : List Char
  used : Nat
deriving DecidableEq, Repr

/-- What goes wrong with a pointer. -/
inductive Fault where
  /-- Something is stored outside of the buffer. -/
  | store
  /-- No terminator is found in the buffer. -/
  | read
deriving DecidableEq, Repr

def nul : Char := '\x00'

section Buffer

variable (neon : Neon) (contents : Nat → Char)

/-- New memory, in which there may be anything. -/
def fresh (start length : Nat) : List Char :=
  (List.range' start (length - start)).map contents

/-- `ne_buffer_create`. -/
def neBufferCreate : NeBuffer where
  data := nul :: fresh contents 1 neon.created
  used := 1

/-- `ne_buffer_zappend`. -/
def neBufferZappend (buf : NeBuffer) (text : Text) : NeBuffer :=
  let length := neon.grown buf.data.length (buf.used + text.length)
  let data := buf.data ++ fresh contents buf.data.length length
  { data := data.take (buf.used - 1) ++ text ++ nul ::
      data.drop (buf.used + text.length)
    used := buf.used + text.length }

/-- `ne_buffer_altered`: `used` is counted again, up to the terminator. -/
def neBufferAltered (buf : NeBuffer) : Except Fault NeBuffer :=
  if nul ∈ buf.data then .ok { buf with used := buf.data.idxOf nul + 1 }
  else .error .read

/-- `ne_buffer_finish`: the text that the memory holds. -/
def neBufferFinish (buf : NeBuffer) : Text :=
  buf.data.takeWhile (· != nul)

/-- An assignment to `buf->data[index]`. -/
def store (buf : NeBuffer) (index : Nat) (char : Char) :
    Except Fault NeBuffer :=
  if index < buf.data.length then
    .ok { buf with data := buf.data.set index char }
  else .error .store

/-! ## The functions -/

/-- A text that ends where C sees its end. -/
structure CString where
  chars : Text
  noNul : nul ∉ chars
deriving DecidableEq, Repr

def ampEscaped : Text := "&amp;".toList
def ltEscaped : Text := "&lt;".toList
def gtEscaped : Text := "&gt;".toList

/-- The cases of the `switch`. -/
def entity : Char → Option Text
  | '&' => some ampEscaped
  | '<' => some ltEscaped
  | '>' => some gtEscaped
  | _ => none

/-- The variables of the loop; `pdest` is set before it is used. -/
structure EscapeLoop where
  buf : NeBuffer
  pdest : Nat
  altered : Bool
deriving DecidableEq, Repr

/-- `append_escaped_text`. -/
def appendEscapedText (loop : EscapeLoop) (escaped : Text) :
    Except Fault EscapeLoop := do
  let buf ← if loop.altered then neBufferAltered loop.buf else .ok loop.buf
  return { loop with
    buf := neBufferZappend neon contents buf escaped
    altered := false }

/-- The `default` case. -/
def copyChar (loop : EscapeLoop) (char : Char) : Except Fault EscapeLoop := do
  let pdest := if loop.altered then loop.pdest else loop.buf.used - 1
  let buf ← store loop.buf pdest char
  return { buf := buf, pdest := pdest + 1, altered := true }

def escapeStep (loop : EscapeLoop) (char : Char) : Except Fault EscapeLoop :=
  match entity char with
  | some escaped => appendEscapedText neon contents loop escaped
  | none => copyChar loop char

/-- The terminator is written behind the last character. -/
def terminate (loop : EscapeLoop) : Except Fault NeBuffer := do
  let buf ← store loop.buf loop.pdest nul
  neBufferAltered buf

/-- What is done behind the loop. -/
def finishLoop (loop : EscapeLoop) : Except Fault Text := do
  let buf ← if loop.altered then terminate loop else .ok loop.buf
  return neBufferFinish buf

/-- `escape_xml_text`. -/
def escapeXmlText (text : CString) : Except Fault Text := do
  let loop ← text.chars.foldlM (escapeStep neon contents)
    { buf := neBufferCreate neon contents, pdest := 0, altered := false }
  finishLoop loop

end Buffer

/-! ## What the result is to be -/

/-- Every character, or its entity. -/
def escaped (text : Text) : Text :=
  text.flatMap fun char => (entity char).getD [char]

/-- Entities are read as the characters that they stand for. -/
def unescape : Text → Text
  | '&' :: 'a' :: 'm' :: 'p' :: ';' :: rest => '&' :: unescape rest
  | '&' :: 'l' :: 't' :: ';' :: rest => '<' :: unescape rest
  | '&' :: 'g' :: 't' :: ';' :: rest => '>' :: unescape rest
  | char :: rest => char :: unescape rest
  | [] => []

/-- Whatever was in the memory before, the text is escaped. -/
def Escapes (neon : Neon) (text : CString) : Prop :=
  ∀ contents, ∃ result, escapeXmlText neon contents text = .ok result ∧
    result = escaped text.chars ∧ unescape result = text.chars

/-! ## Escaped texts -/

section Escaped

variable {text rest : Text} {char : Char}

def isEscaped (char : Char) : Bool :=
  (entity char).isSome

theorem entity_cases (char : Char) :
    (char = '&' ∧ entity char = some ampEscaped) ∨
      (char = '<' ∧ entity char = some ltEscaped) ∨
      (char = '>' ∧ entity char = some gtEscaped) ∨
      (char ≠ '&' ∧ entity char = none) := by
  unfold entity
  split
  next => exact Or.inl ⟨rfl, rfl⟩
  next => exact Or.inr (Or.inl ⟨rfl, rfl⟩)
  next => exact Or.inr (Or.inr (Or.inl ⟨rfl, rfl⟩))
  next noAmp _ _ => exact Or.inr (Or.inr (Or.inr ⟨noAmp, rfl⟩))

theorem unescape_cons (other : char ≠ '&') :
    unescape (char :: rest) = char :: unescape rest := by
  rw [unescape]
  · exact fun _ same => (other same).elim
  · exact fun _ same => (other same).elim
  · exact fun _ same => (other same).elim

theorem unescape_escaped (text : Text) : unescape (escaped text) = text := by
  induction text with
  | nil => rfl
  | cons char text induction =>
      rw [escaped, List.flatMap_cons]
      show unescape ((entity char).getD [char] ++ escaped text) = char :: text
      rcases entity_cases char with
        ⟨rfl, here⟩ | ⟨rfl, here⟩ | ⟨rfl, here⟩ | ⟨other, here⟩
      · exact congrArg ('&' :: ·) induction
      · exact congrArg ('<' :: ·) induction
      · exact congrArg ('>' :: ·) induction
      · rw [here]
        show unescape (char :: escaped text) = char :: text
        rw [unescape_cons other, induction]

theorem escaped_append : escaped (text ++ rest) = escaped text ++ escaped rest :=
  List.flatMap_append

/-- Characters without entities are kept. -/
theorem escaped_plain (plain : ∀ char ∈ text, isEscaped char = false) :
    escaped text = text := by
  induction text with
  | nil => rfl
  | cons char text induction =>
      rw [List.forall_mem_cons] at plain
      have here : entity char = none := by
        simpa [isEscaped] using plain.1
      rw [escaped, List.flatMap_cons, here]
      exact congrArg (char :: ·) (induction plain.2)

theorem nul_notMem_entity {entityText : Text}
    (here : entity char = some entityText) :
    nul ∉ entityText := by
  rcases entity_cases char with
    ⟨-, found⟩ | ⟨-, found⟩ | ⟨-, found⟩ | ⟨-, found⟩
  all_goals
    rw [found] at here
    cases here
    try decide

end Escaped

/-! ## The memory -/

section Memory

variable {neon : Neon} {contents : Nat → Char} {length : Nat}
  {text front cells plain chars : Text} {buf : NeBuffer} {loop : EscapeLoop}

/-- The buffer holds the text, and memory that was not written behind it. -/
structure Holds (contents : Nat → Char) (length : Nat) (text : Text)
    (buf : NeBuffer) : Prop where
  used : buf.used = text.length + 1
  length : buf.data.length = length
  data : ∃ rest, buf.data = text ++ nul :: rest ∧
    ∀ cell ∈ rest, ∃ index, cell = contents index

/-- The length of the buffer behind the entities of a text. -/
def grownFor (neon : Neon) (length used : Nat) : Text → Nat
  | [] => length
  | char :: text =>
      let needed := used + ((entity char).getD []).length
      grownFor neon (neon.grown length needed) needed text

theorem mem_fresh
    {start : Nat} {cell : Char}
    (member : cell ∈ fresh contents start length) :
    ∃ index, cell = contents index := by
  rcases List.mem_map.mp member with ⟨index, -, rfl⟩
  exact ⟨index, rfl⟩

theorem length_fresh (start : Nat) :
    (fresh contents start length).length = length - start := by
  rw [fresh, List.length_map, List.length_range']

theorem holds_neBufferCreate :
    Holds contents neon.created [] (neBufferCreate neon contents) where
  used := rfl
  length := by
    have positive := neon.created_pos
    show (fresh contents 1 neon.created).length + 1 = neon.created
    rw [length_fresh]
    omega
  data := ⟨fresh contents 1 neon.created, rfl, fun _ => mem_fresh⟩

/-- A text is put where the terminator was. -/
theorem Holds.zappend
    (holds : Holds contents length text buf) (appended : Text) :
    Holds contents (neon.grown length (text.length + 1 + appended.length))
      (text ++ appended) (neBufferZappend neon contents buf appended) := by
  rcases holds with ⟨used, rfl, rest, data, unwritten⟩
  have enough := neon.needed_le buf.data.length
    (text.length + 1 + appended.length)
  have longer := neon.length_le buf.data.length
    (text.length + 1 + appended.length)
  generalize grows : neon.grown buf.data.length
    (text.length + 1 + appended.length) = grown at enough longer ⊢
  have kept : (buf.data ++ fresh contents buf.data.length grown).take
      (text.length + 1 - 1) = text := by
    rw [data, Nat.add_sub_cancel, List.append_assoc, List.take_left]
  have behind : (buf.data ++ fresh contents buf.data.length grown).drop
      (text.length + 1 + appended.length) =
        (rest ++ fresh contents buf.data.length grown).drop
          appended.length := by
    rw [← List.drop_drop, ← List.drop_drop, List.drop_append_of_le_length,
      data, List.drop_left]
    · rfl
    · rw [data]
      simp
  have result : neBufferZappend neon contents buf appended =
      { data := text ++ appended ++ nul ::
          (rest ++ fresh contents buf.data.length grown).drop appended.length
        used := text.length + 1 + appended.length } := by
    rw [neBufferZappend, used, grows, kept, behind]
  rw [result]
  constructor
  · simp only [List.length_append]
    omega
  · have lengths := congrArg List.length data
    simp only [List.length_append, List.length_cons] at lengths
    simp only [List.length_append, List.length_cons, List.length_drop,
      length_fresh]
    omega
  · refine ⟨_, rfl, ?_⟩
    intro cell member
    rcases List.mem_append.mp (List.mem_of_mem_drop member) with old | new
    · exact unwritten cell old
    · exact mem_fresh new

/-- Entities are appended one after the other. -/
theorem foldlM_entities
    (holds : Holds contents length text loop.buf)
    (unaltered : loop.altered = false)
    (entities : ∀ char ∈ chars, isEscaped char = true) :
    ∃ after, chars.foldlM (escapeStep neon contents) loop = .ok after ∧
      after.altered = false ∧
        Holds contents (grownFor neon length (text.length + 1) chars)
          (text ++ escaped chars) after.buf := by
  induction chars generalizing length text loop with
  | nil =>
      refine ⟨loop, rfl, unaltered, ?_⟩
      rw [escaped, List.flatMap_nil, List.append_nil]
      exact holds
  | cons char chars induction =>
      rw [List.forall_mem_cons] at entities
      rcases Option.isSome_iff_exists.mp entities.1 with ⟨appended, here⟩
      have step : escapeStep neon contents loop char =
          .ok { loop with
            buf := neBufferZappend neon contents loop.buf appended
            altered := false } := by
        rw [escapeStep, here]
        show appendEscapedText neon contents loop appended = _
        rw [appendEscapedText, unaltered]
        rfl
      have next : Holds contents
          (neon.grown length (text.length + 1 + appended.length))
          (text ++ appended)
          (EscapeLoop.mk (neBufferZappend neon contents loop.buf appended)
            loop.pdest false).buf :=
        holds.zappend appended
      rcases induction next rfl entities.2 with ⟨after, run, kept, held⟩
      refine ⟨after, ?_, kept, ?_⟩
      · rw [List.foldlM_cons, step]
        exact run
      · have whole : text ++ escaped (char :: chars) =
            text ++ appended ++ escaped chars := by
          rw [List.append_assoc, escaped, List.flatMap_cons, here]
          rfl
        have lengths : (text ++ appended).length + 1 =
            text.length + 1 + appended.length := by
          rw [List.length_append]
          omega
        rw [lengths] at held
        rw [whole, grownFor, here]
        exact held

/-- Characters are assigned one after the other while there is memory. -/
theorem foldlM_plain
    (data : loop.buf.data = front ++ cells)
    (pdest : loop.pdest = front.length)
    (altered : loop.altered = true)
    (isPlain : ∀ char ∈ plain, isEscaped char = false) :
    plain.foldlM (escapeStep neon contents) loop =
      if plain.length ≤ cells.length then
        .ok
          { buf := ⟨front ++ plain ++ cells.drop plain.length, loop.buf.used⟩
            pdest := front.length + plain.length
            altered := true }
      else .error .store := by
  induction plain generalizing loop front cells with
  | nil =>
      rcases loop with ⟨⟨memory, used⟩, index, flag⟩
      have data : memory = front ++ cells := data
      have pdest : index = front.length := pdest
      have altered : flag = true := altered
      rw [List.length_nil, if_pos (Nat.zero_le _), List.append_nil,
        List.drop_zero, Nat.add_zero, data, pdest, altered]
      rfl
  | cons char plain induction =>
      rw [List.forall_mem_cons] at isPlain
      have here : entity char = none := by
        simpa [isEscaped] using isPlain.1
      have step : escapeStep neon contents loop char = (do
          let buf ← store loop.buf front.length char
          return ⟨buf, front.length + 1, true⟩) := by
        rw [escapeStep, here]
        show copyChar loop char = _
        rw [copyChar, altered, pdest]
        rfl
      rw [List.foldlM_cons, step, store, data, List.length_append]
      cases cells with
      | nil =>
          rw [if_neg (by simp), if_neg (by simp)]
          rfl
      | cons cell cells =>
          rw [if_pos (by simp), List.set_append_right _ _ (Nat.le_refl _),
            Nat.sub_self, List.set_cons_zero]
          have data : (EscapeLoop.mk ⟨front ++ char :: cells, loop.buf.used⟩
              (front.length + 1) true).buf.data = front ++ [char] ++ cells := by
            rw [List.append_assoc]
            rfl
          have pdest : (EscapeLoop.mk ⟨front ++ char :: cells, loop.buf.used⟩
              (front.length + 1) true).pdest = (front ++ [char]).length := by
            rw [List.length_append, List.length_singleton]
          refine (induction data pdest rfl isPlain.2).trans ?_
          have length : (front ++ [char]).length + plain.length =
              front.length + (plain.length + 1) := by
            rw [List.length_append, List.length_singleton]
            omega
          rw [length, List.append_assoc front]
          by_cases fits : plain.length ≤ cells.length
          · have longer : (char :: plain).length ≤ (cell :: cells).length :=
              Nat.succ_le_succ fits
            rw [if_pos fits, if_pos longer]
            rfl
          · have longer : ¬ (char :: plain).length ≤ (cell :: cells).length :=
              fun longer => fits (Nat.le_of_succ_le_succ longer)
            rw [if_neg fits, if_neg longer]

/-- The first character without an entity is put where the terminator was. -/
theorem foldlM_plain_of_holds
    (holds : Holds contents length text loop.buf)
    (unaltered : loop.altered = false)
    (filled : plain ≠ [])
    (isPlain : ∀ char ∈ plain, isEscaped char = false) :
    ∃ rest, loop.buf.data = text ++ nul :: rest ∧
      (∀ cell ∈ rest, ∃ index, cell = contents index) ∧
      length = text.length + (rest.length + 1) ∧
      plain.foldlM (escapeStep neon contents) loop =
        if plain.length ≤ rest.length + 1 then
          .ok
            { buf := ⟨text ++ plain ++ (nul :: rest).drop plain.length,
                loop.buf.used⟩
              pdest := text.length + plain.length
              altered := true }
        else .error .store := by
  rcases holds with ⟨used, rfl, rest, data, unwritten⟩
  refine ⟨rest, data, unwritten, ?_, ?_⟩
  · rw [data, List.length_append, List.length_cons]
  · have set : plain.foldlM (escapeStep neon contents) loop =
        plain.foldlM (escapeStep neon contents)
          ⟨loop.buf, text.length, true⟩ := by
      cases plain with
      | nil => exact (filled rfl).elim
      | cons char plain =>
          have here : entity char = none := by
            simpa [isEscaped] using isPlain char List.mem_cons_self
          have pdest : loop.buf.used - 1 = text.length := by
            rw [used, Nat.add_sub_cancel]
          rw [List.foldlM_cons, List.foldlM_cons, escapeStep, escapeStep,
            here]
          show copyChar loop char >>= _ = copyChar _ char >>= _
          rw [copyChar, copyChar, unaltered, pdest]
          rfl
    have memory : (EscapeLoop.mk loop.buf text.length true).buf.data =
        text ++ nul :: rest :=
      data
    rw [set]
    exact foldlM_plain memory rfl rfl isPlain

end Memory

/-! ## Where the text is escaped -/

/-- The entities at the beginning of a text. -/
def entitiesOf (text : Text) : Text :=
  text.takeWhile isEscaped

/-- What is behind them. -/
def behindEntities (text : Text) : Text :=
  text.dropWhile isEscaped

/--
All characters with entities come first, and the others fit into the memory
that is there then, with a terminator.
-/
structure IsStoredInside (neon : Neon) (text : Text) : Prop where
  plain : ∀ char ∈ behindEntities text, isEscaped char = false
  fits : (escaped (entitiesOf text)).length + (behindEntities text).length <
    grownFor neon neon.created 1 (entitiesOf text)

section Run

variable {neon : Neon} {text : CString}

/-- The loop over the entities at the beginning. -/
theorem exists_run_entities (neon : Neon) (contents : Nat → Char)
    (text : CString) :
    ∃ after, after.altered = false ∧
      Holds contents (grownFor neon neon.created 1 (entitiesOf text.chars))
        (escaped (entitiesOf text.chars)) after.buf ∧
      escapeXmlText neon contents text = (do
        let loop ← (behindEntities text.chars).foldlM
          (escapeStep neon contents) after
        finishLoop loop) := by
  have entities : ∀ char ∈ entitiesOf text.chars, isEscaped char = true :=
    fun _ => List.mem_takeWhile_imp
  have start : Holds contents neon.created []
      (EscapeLoop.mk (neBufferCreate neon contents) 0 false).buf :=
    holds_neBufferCreate
  rcases foldlM_entities start rfl entities with ⟨after, run, kept, held⟩
  refine ⟨after, kept, held, ?_⟩
  have whole : text.chars =
      entitiesOf text.chars ++ behindEntities text.chars :=
    List.takeWhile_append_dropWhile.symm
  rw [escapeXmlText, whole, List.foldlM_append, run]
  rw [← whole]
  rfl

theorem nul_notMem_escaped {chars : Text} (noNul : nul ∉ chars) :
    nul ∉ escaped chars := by
  intro member
  rcases List.mem_flatMap.mp member with ⟨char, within, found⟩
  cases here : entity char with
  | none =>
      rw [here] at found
      rcases List.mem_singleton.mp found with rfl
      exact noNul within
  | some appended =>
      rw [here] at found
      exact nul_notMem_entity here found

/-- A text up to its terminator. -/
theorem neBufferFinish_eq
    {chars rest : Text} {used : Nat} (noNul : nul ∉ chars) :
    neBufferFinish ⟨chars ++ nul :: rest, used⟩ = chars := by
  have others : ∀ char ∈ chars, (char != nul) = true := by
    intro char member
    rw [bne_iff_ne]
    rintro rfl
    exact noNul member
  rw [neBufferFinish, List.takeWhile_append_of_pos others,
    List.takeWhile_cons_of_neg (by simp), List.append_nil]

/-- The terminator is written behind the text, and found there. -/
theorem finishLoop_eq
    {chars cells : Text} {used : Nat} (noNul : nul ∉ chars) :
    finishLoop ⟨⟨chars ++ cells, used⟩, chars.length, true⟩ =
      if cells = [] then .error .store else .ok chars := by
  have terminated : terminate ⟨⟨chars ++ cells, used⟩, chars.length, true⟩ =
      if cells = [] then .error .store
      else neBufferAltered ⟨(chars ++ cells).set chars.length nul, used⟩ := by
    cases cells with
    | nil =>
        have outside : ¬ chars.length < (chars ++ []).length := by
          simp
        rw [if_pos rfl, terminate, store, if_neg outside]
        rfl
    | cons cell cells =>
        have inside : chars.length < (chars ++ cell :: cells).length := by
          simp
        rw [if_neg (List.cons_ne_nil cell cells), terminate, store,
          if_pos inside]
        rfl
  show (terminate _ >>= fun buf => pure (neBufferFinish buf)) = _
  rw [terminated]
  cases cells with
  | nil => rfl
  | cons cell cells =>
      have found : nul ∈ chars ++ nul :: cells := by
        simp
      rw [if_neg (List.cons_ne_nil cell cells),
        if_neg (List.cons_ne_nil cell cells),
        List.set_append_right _ _ (Nat.le_refl _), Nat.sub_self,
        List.set_cons_zero, neBufferAltered, if_pos found]
      exact congrArg Except.ok (neBufferFinish_eq noNul)

/-- What comes of a text whose characters without entities are at the end. -/
theorem escapeXmlText_of_plain
    (contents : Nat → Char)
    (isPlain : ∀ char ∈ behindEntities text.chars, isEscaped char = false) :
    escapeXmlText neon contents text =
      if (escaped (entitiesOf text.chars)).length +
          (behindEntities text.chars).length <
            grownFor neon neon.created 1 (entitiesOf text.chars) then
        .ok (escaped text.chars)
      else .error .store := by
  rcases exists_run_entities neon contents text with
    ⟨after, unaltered, held, run⟩
  have whole : escaped text.chars =
      escaped (entitiesOf text.chars) ++ behindEntities text.chars := by
    have halves : text.chars =
        entitiesOf text.chars ++ behindEntities text.chars :=
      List.takeWhile_append_dropWhile.symm
    nth_rewrite 1 [halves]
    rw [escaped_append, escaped_plain isPlain]
  have noNul := nul_notMem_escaped text.noNul
  rw [run, whole]
  rw [whole] at noNul
  by_cases filled : behindEntities text.chars = []
  · rcases held.data with ⟨rest, data, -⟩
    have lengths := held.length
    rw [data, List.length_append, List.length_cons] at lengths
    rw [filled, List.append_nil] at noNul ⊢
    rw [List.length_nil, if_pos (by omega)]
    show finishLoop after = _
    rw [finishLoop, unaltered]
    show Except.ok (neBufferFinish after.buf) = _
    rcases after with ⟨⟨memory, used⟩, pdest, altered⟩
    have data : memory = _ ++ nul :: rest := data
    rw [data]
    exact congrArg Except.ok (neBufferFinish_eq noNul)
  · rcases foldlM_plain_of_holds held unaltered filled isPlain with
      ⟨rest, -, -, lengths, plainRun⟩
    rw [plainRun, lengths]
    by_cases fits : (behindEntities text.chars).length ≤ rest.length + 1
    · rw [if_pos fits, ← List.length_append]
      refine (finishLoop_eq noNul).trans ?_
      have left : (nul :: rest).drop (behindEntities text.chars).length = [] ↔
          rest.length + 1 ≤ (behindEntities text.chars).length :=
        List.drop_eq_nil_iff
      rw [List.length_append]
      by_cases room : (behindEntities text.chars).length < rest.length + 1
      · rw [if_neg fun empty => Nat.not_lt_of_le (left.mp empty) room,
          if_pos (Nat.add_lt_add_left room _)]
      · rw [if_pos (left.mpr (Nat.le_of_not_lt room)), if_neg (by omega)]
    · rw [if_neg fits, if_neg (by omega)]
      rfl

/-- The characters up to the next one with an entity. -/
theorem exists_split_behindEntities
    {chars : Text} {char : Char}
    (found : char ∈ behindEntities chars)
    (isEntity : isEscaped char = true) :
    ∃ plain special more,
      behindEntities chars = plain ++ special :: more ∧ plain ≠ [] ∧
        (∀ char ∈ plain, isEscaped char = false) ∧
          isEscaped special = true := by
  have split : (behindEntities chars).takeWhile (fun char => !isEscaped char)
      ++ (behindEntities chars).dropWhile (fun char => !isEscaped char) =
        behindEntities chars :=
    List.takeWhile_append_dropWhile
  have first := List.head?_dropWhile_not (fun char => !isEscaped char)
    (behindEntities chars)
  cases behind : (behindEntities chars).dropWhile fun char =>
      !isEscaped char with
  | nil =>
      have plain := List.dropWhile_eq_nil_iff.mp behind char found
      rw [isEntity] at plain
      cases plain
  | cons special more =>
      rw [behind] at split first
      have isSpecial : isEscaped special = true := by
        simpa using first
      refine ⟨_, special, more, split.symm, ?_, ?_, isSpecial⟩
      · intro empty
        rw [empty, List.nil_append] at split
        have head := List.head?_dropWhile_not isEscaped chars
        have same : (behindEntities chars).head? = some special := by
          rw [← split]
          rfl
        rw [behindEntities] at same
        rw [same] at head
        exact Bool.false_ne_true (head.symm.trans isSpecial)
      · intro other member
        simpa using List.mem_takeWhile_imp member

/-- Behind characters without a terminator none is found. -/
theorem escapeXmlText_of_not_plain
    {char : Char}
    (found : char ∈ behindEntities text.chars)
    (isEntity : isEscaped char = true) :
    ∃ fault, escapeXmlText neon (fun _ => 'x') text = .error fault := by
  rcases exists_run_entities neon (fun _ => 'x') text with
    ⟨after, unaltered, held, run⟩
  rcases exists_split_behindEntities found isEntity with
    ⟨plain, special, more, split, filled, isPlain, isSpecial⟩
  rcases foldlM_plain_of_holds held unaltered filled isPlain with
    ⟨rest, -, unwritten, -, plainRun⟩
  rw [run, split, List.foldlM_append, plainRun]
  by_cases fits : plain.length ≤ rest.length + 1
  · rw [if_pos fits]
    rcases Option.isSome_iff_exists.mp isSpecial with ⟨appended, here⟩
    have noTerminator : nul ∉ escaped (entitiesOf text.chars) ++ plain ++
        (nul :: rest).drop plain.length := by
      intro member
      have noNul : nul ∉ behindEntities text.chars := fun within =>
        text.noNul ((List.dropWhile_suffix isEscaped).subset within)
      have noNulFront : nul ∉ entitiesOf text.chars := fun within =>
        text.noNul ((List.takeWhile_prefix isEscaped).subset within)
      rcases List.mem_append.mp member with front | behind
      · rcases List.mem_append.mp front with escapedFront | copied
        · exact nul_notMem_escaped noNulFront escapedFront
        · rw [split] at noNul
          exact noNul (List.mem_append_left _ copied)
      · rcases List.exists_cons_of_ne_nil filled with ⟨first, later, rfl⟩
        rw [List.length_cons, List.drop_succ_cons] at behind
        rcases unwritten nul (List.mem_of_mem_drop behind) with ⟨-, isX⟩
        exact absurd isX (by decide)
    have step (loop : EscapeLoop) (altered : loop.altered = true)
        (data : loop.buf.data = escaped (entitiesOf text.chars) ++ plain ++
          (nul :: rest).drop plain.length) :
        (special :: more).foldlM (escapeStep neon fun _ => 'x') loop =
          .error .read := by
      rw [List.foldlM_cons, escapeStep, here]
      show appendEscapedText neon _ loop appended >>= _ = _
      rw [appendEscapedText, altered, if_pos rfl, neBufferAltered, data,
        if_neg noTerminator]
      rfl
    refine ⟨.read, ?_⟩
    exact congrArg (· >>= finishLoop) (step _ rfl rfl)
  · rw [if_neg fits]
    exact ⟨.store, rfl⟩

theorem escapes_iff (neon : Neon) (text : CString) :
    Escapes neon text ↔ IsStoredInside neon text.chars := by
  constructor
  · intro escapes
    have isPlain : ∀ char ∈ behindEntities text.chars,
        isEscaped char = false := by
      intro char found
      by_contra isEntity
      rcases escapeXmlText_of_not_plain found (by simpa using isEntity) with
        ⟨fault, failed⟩
      rcases escapes fun _ => 'x' with ⟨result, succeeded, -⟩
      rw [failed] at succeeded
      cases succeeded
    refine ⟨isPlain, ?_⟩
    by_contra outside
    rcases escapes fun _ => 'x' with ⟨result, succeeded, -⟩
    rw [escapeXmlText_of_plain _ isPlain, if_neg outside] at succeeded
    cases succeeded
  · rintro ⟨isPlain, fits⟩ contents
    refine ⟨escaped text.chars, ?_, rfl, unescape_escaped text.chars⟩
    rw [escapeXmlText_of_plain contents isPlain, if_pos fits]

end Run

/-- Lengths in steps of 512, as the library has them. -/
def neon512 : Neon where
  created := 512
  grown length needed :=
    if needed ≤ length then length else (needed / 512 + 1) * 512
  created_pos := by decide
  needed_le length needed := by
    split
    next fits => exact fits
    next => omega
  length_le length needed := by
    split
    next => exact le_refl length
    next longer => omega

/-- A letter before an ampersand. -/
def researchAndDevelopment : CString where
  chars := "R&D".toList
  noNul := by decide

theorem not_escapes : ¬ ∀ neon text, Escapes neon text := by
  intro escapes
  rcases escapes neon512 researchAndDevelopment fun _ => 'x' with
    ⟨result, succeeded, -⟩
  have found : '&' ∈ behindEntities researchAndDevelopment.chars := by
    decide
  rcases escapeXmlText_of_not_plain found rfl with ⟨fault, failed⟩
  rw [failed] at succeeded
  cases succeeded

end Limestone.EscapeXmlText
