import Mathlib.Data.List.AList
import Mathlib.Data.List.Induction
import Mathlib.Tactic.Common

/-!
# Pointing to the last item with the same key

A pass over a list keeps for every key a pointer to the last item that had
it.  Each item is paired with the pointer that was there for its key when the
pass came to it; an item without one is the first of its key.
-/

namespace Limestone.Library.LastSeen

variable {Item Key Pointer : Type*} [DecidableEq Key] (key : Item → Key)
  (pointer : Nat → Pointer)

/--
The items with their pointers, and the pointers at the end of the pass, the
latest first.  The first item has the given index.
-/
def mark : List (Key × Pointer) → Nat → List Item →
    List (Item × Option Pointer) × List (Key × Pointer)
  | seen, _, [] => ([], seen)
  | seen, index, item :: items =>
      let rest := mark ((key item, pointer index) :: seen) (index + 1) items
      ((item, seen.lookup (key item)) :: rest.1, rest.2)

variable {key pointer} {seen : List (Key × Pointer)} {index : Nat}
  {item : Item} {items before rest : List Item} {value : Key}
  {found : Option Pointer}

theorem mark_append :
    mark key pointer seen index (before ++ rest) =
      ((mark key pointer seen index before).1 ++
          (mark key pointer (mark key pointer seen index before).2
            (index + before.length) rest).1,
        (mark key pointer (mark key pointer seen index before).2
          (index + before.length) rest).2) := by
  induction before generalizing seen index with
  | nil => rfl
  | cons head before induction =>
      have shift : index + (head :: before).length =
          index + 1 + before.length := by
        rw [List.length_cons, Nat.add_assoc, Nat.add_comm 1]
      rw [shift, List.cons_append, mark, mark, induction]
      rfl

theorem map_fst_mark :
    (mark key pointer seen index items).1.map Prod.fst = items := by
  induction items generalizing seen index with
  | nil => rfl
  | cons item items induction =>
      rw [mark, List.map_cons, induction]

theorem mem_of_mem_mark
    {entry : Item × Option Pointer}
    (member : entry ∈ (mark key pointer seen index items).1) :
    entry.1 ∈ items := by
  have mapped : entry.1 ∈ (mark key pointer seen index items).1.map Prod.fst :=
    List.mem_map.mpr ⟨entry, member, rfl⟩
  rw [map_fst_mark] at mapped
  exact mapped

theorem exists_mem_mark
    (member : item ∈ items) :
    ∃ found, (item, found) ∈ (mark key pointer seen index items).1 := by
  have listed : item ∈ (mark key pointer seen index items).1.map Prod.fst := by
    rw [map_fst_mark]
    exact member
  rcases List.mem_map.mp listed with ⟨entry, marked, rfl⟩
  exact ⟨entry.2, marked⟩

theorem length_mark :
    (mark key pointer seen index items).1.length = items.length := by
  rw [← List.length_map Prod.fst, map_fst_mark]

/-- The pass at one item. -/
theorem mark_split :
    (mark key pointer seen index (before ++ item :: rest)).1 =
      (mark key pointer seen index before).1 ++
        (item, (mark key pointer seen index before).2.lookup (key item)) ::
          (mark key pointer ((key item, pointer (index + before.length)) ::
            (mark key pointer seen index before).2)
              (index + before.length + 1) rest).1 := by
  rw [mark_append]
  rfl

/--
The pointer to the last item with a key, or what was there for the key
before the first item.
-/
def IsLast (key : Item → Key) (pointer : Nat → Pointer)
    (seen : List (Key × Pointer)) (index : Nat) (before : List Item)
    (value : Key) (found : Option Pointer) : Prop :=
  (∃ earlier item later, before = earlier ++ item :: later ∧
      key item = value ∧ (∀ other ∈ later, key other ≠ value) ∧
      found = some (pointer (index + earlier.length))) ∨
    (∀ item ∈ before, key item ≠ value) ∧ found = seen.lookup value

theorem isLast_mark (seen : List (Key × Pointer)) (index : Nat)
    (before : List Item) (value : Key) :
    IsLast key pointer seen index before value
      ((mark key pointer seen index before).2.lookup value) := by
  induction before using List.reverseRec with
  | nil => exact Or.inr ⟨nofun, rfl⟩
  | append_singleton before last induction =>
      rw [mark_append]
      show IsLast key pointer seen index (before ++ [last]) value
        (((key last, pointer (index + before.length)) ::
          (mark key pointer seen index before).2).lookup value)
      by_cases same : key last = value
      · rw [same, List.lookup_cons_self]
        exact Or.inl ⟨before, last, [], rfl, same, nofun, rfl⟩
      · have other : (value == key last) = false :=
          beq_eq_false_iff_ne.mpr (Ne.symm same)
        rw [List.lookup_cons, other]
        rcases induction with
          ⟨earlier, item, later, rfl, keyed, unlike, equation⟩ |
            ⟨unlike, equation⟩
        · refine Or.inl ⟨earlier, item, later ++ [last], by simp, keyed, ?_,
            equation⟩
          intro between member
          rcases List.mem_append.mp member with member | member
          · exact unlike between member
          · rw [List.mem_singleton.mp member]
            exact same
        · refine Or.inr ⟨?_, equation⟩
          intro item member
          rcases List.mem_append.mp member with member | member
          · exact unlike item member
          · rw [List.mem_singleton.mp member]
            exact same

/-- The entry at a place points to the last item before it with its key. -/
theorem isLast_of_getElem?
    {place : Nat} {entry : Item × Option Pointer}
    (present :
      (mark key pointer seen index items).1[place]? = some entry) :
    items[place]? = some entry.1 ∧
      IsLast key pointer seen index (items.take place) (key entry.1)
        entry.2 := by
  have listed : items[place]? = some entry.1 := by
    have mapped := congrArg (Option.map Prod.fst) present
    rw [← List.getElem?_map, map_fst_mark] at mapped
    exact mapped
  refine ⟨listed, ?_⟩
  rcases List.getElem?_eq_some_iff.mp listed with ⟨inside, item⟩
  have split : items = items.take place ++ entry.1 :: items.drop (place + 1) := by
    rw [← item, ← List.drop_eq_getElem_cons inside, List.take_append_drop]
  have length : (mark key pointer seen index (items.take place)).1.length =
      place := by
    rw [length_mark, List.length_take]
    omega
  rw [split, mark_split, List.getElem?_append_right (Nat.le_of_eq length),
    length, Nat.sub_self, List.getElem?_cons_zero] at present
  have pointer_eq := congrArg Prod.snd (Option.some.inj present)
  rw [← pointer_eq]
  exact isLast_mark seen index (items.take place) (key entry.1)

/-- A key without a pointer is one that has not been met. -/
theorem lookup_mark_eq_none :
    (mark key pointer seen index before).2.lookup value = none ↔
      (∀ item ∈ before, key item ≠ value) ∧ seen.lookup value = none := by
  have last : IsLast key pointer seen index before value
      ((mark key pointer seen index before).2.lookup value) :=
    isLast_mark seen index before value
  rcases last with
    ⟨earlier, item, later, rfl, keyed, -, equation⟩ | ⟨unlike, equation⟩
  · rw [equation]
    constructor
    · intro absent
      cases absent
    · rintro ⟨unlike, -⟩
      exact absurd keyed (unlike item (by simp))
  · rw [equation]
    exact ⟨fun absent => ⟨unlike, absent⟩, fun both => both.2⟩

/-- An item without a pointer is new. -/
theorem new_of_mem_mark
    (member : (item, none) ∈ (mark key pointer seen index items).1) :
    item ∈ items ∧ seen.lookup (key item) = none := by
  have listed : item ∈ items := mem_of_mem_mark member
  refine ⟨listed, ?_⟩
  induction items generalizing seen index with
  | nil => cases listed
  | cons head items induction =>
      rw [mark] at member
      rcases List.mem_cons.mp member with same | later
      · rcases Prod.mk.inj same with ⟨rfl, absent⟩
        exact absent.symm
      · have absent := induction later (mem_of_mem_mark later)
        rw [List.lookup_cons] at absent
        split at absent
        · cases absent
        · exact absent

/-- An item without a pointer has another key than those before it. -/
theorem pairwise_new :
    (mark key pointer seen index items).1.Pairwise fun first second =>
      second.2 = none → key first.1 ≠ key second.1 := by
  induction items generalizing seen index with
  | nil => exact List.Pairwise.nil
  | cons head items induction =>
      rw [mark, List.pairwise_cons]
      refine ⟨?_, induction⟩
      rintro ⟨item, found⟩ later rfl same
      have absent := (new_of_mem_mark later).2
      have isHead : key head = key item := same
      rw [← isHead, List.lookup_cons_self] at absent
      cases absent

/-- A key that is new has an item without a pointer. -/
theorem exists_new
    (listed : ∃ item ∈ items, key item = value)
    (absent : seen.lookup value = none) :
    ∃ item, (item, none) ∈ (mark key pointer seen index items).1 ∧
      key item = value := by
  induction items generalizing seen index with
  | nil =>
      rcases listed with ⟨_, member, _⟩
      cases member
  | cons head items induction =>
      by_cases same : key head = value
      · refine ⟨head, ?_, same⟩
        rw [mark, same, absent]
        exact List.mem_cons_self
      · have later : ∃ item ∈ items, key item = value := by
          rcases listed with ⟨item, member, keyed⟩
          rcases List.mem_cons.mp member with rfl | member
          · exact absurd keyed same
          · exact ⟨item, member, keyed⟩
        have other : (value == key head) = false :=
          beq_eq_false_iff_ne.mpr (Ne.symm same)
        have still :
            ((key head, pointer index) :: seen).lookup value = none := by
          rw [List.lookup_cons, other]
          exact absent
        rcases induction later still with ⟨item, member, keyed⟩
        exact ⟨item, List.mem_cons_of_mem _ member, keyed⟩

/-- An item with a pointer comes behind another with its key. -/
theorem repeated_of_mem_mark
    {there : Pointer}
    (member : (item, some there) ∈ (mark key pointer seen index items).1) :
    seen.lookup (key item) = some there ∨
      ∃ earlier other between rest,
        items = (earlier ++ other :: between) ++ item :: rest ∧
          key other = key item := by
  rcases List.getElem?_of_mem member with ⟨place, present⟩
  rcases isLast_of_getElem? present with ⟨listed, last⟩
  rcases List.getElem?_eq_some_iff.mp listed with ⟨inside, here⟩
  have item_eq : items[place] = item := here
  rcases last with ⟨earlier, other, between, front, same, -⟩ | ⟨-, old⟩
  · right
    refine ⟨earlier, other, between, items.drop (place + 1), ?_, same⟩
    rw [← front, ← item_eq, ← List.drop_eq_getElem_cons inside,
      List.take_append_drop]
  · exact Or.inl old.symm

/-! ## The last entry written for a key -/

section Writing

variable {Value : Type*}

/-- Set the value of a key, or remove the key. -/
def write (table : AList fun _ : Key => Value) (edit : Key × Option Value) :
    AList fun _ : Key => Value :=
  match edit.2 with
  | none => table.erase edit.1
  | some written => table.insert edit.1 written

variable {table : AList fun _ : Key => Value}
  {edits : List (Key × Option Value)} {edit : Key × Option Value}

theorem lookup_write :
    (write table edit).lookup value =
      if edit.1 = value then edit.2 else table.lookup value := by
  rcases edit with ⟨edited, written⟩
  by_cases same : edited = value
  · rcases same with rfl
    rw [if_pos rfl]
    cases written with
    | none => exact AList.lookup_erase edited table
    | some written => exact AList.lookup_insert table
  · rw [if_neg same]
    cases written with
    | none => exact AList.lookup_erase_ne (Ne.symm same)
    | some written => exact AList.lookup_insert_ne (Ne.symm same)

/-- A pass that gives all its keys one value. -/
theorem lookup_foldl_write_map (keys : List Key) (written : Option Value) :
    ((keys.map fun key => (key, written)).foldl write table).lookup value =
      if value ∈ keys then written else table.lookup value := by
  induction keys generalizing table with
  | nil => exact (if_neg List.not_mem_nil).symm
  | cons first keys induction =>
      rw [List.map_cons, List.foldl_cons, induction, lookup_write]
      by_cases later : value ∈ keys
      · rw [if_pos later, if_pos (List.mem_cons_of_mem first later)]
      · have either : value ∈ first :: keys ↔ first = value := by
          simp [later, eq_comm]
        rw [if_neg later]
        exact if_congr either.symm rfl rfl

/-- After a pass of edits a key has what its last edit gave it. -/
theorem lookup_foldl_write (edits : List (Key × Option Value)) :
    (edits.foldl write table).lookup value =
      ((edits.filter fun edit => decide (edit.1 = value)).getLast?.map
        Prod.snd).getD (table.lookup value) := by
  induction edits using List.reverseRecOn with
  | nil => rfl
  | append_singleton edits edit induction =>
      rw [List.foldl_append, List.foldl_cons, List.foldl_nil, lookup_write,
        List.filter_append]
      by_cases same : edit.1 = value
      · have listed : [edit].filter (fun edit => decide (edit.1 = value)) =
            [edit] := by
          simp [same]
        rw [if_pos same, listed, List.getLast?_concat]
        rfl
      · have dropped : [edit].filter (fun edit => decide (edit.1 = value)) =
            [] := by
          simp [same]
        rw [if_neg same, dropped, List.append_nil, induction]

/-- A pass whose keys are different, over an empty table. -/
theorem lookup_foldl_write_nodup
    {edits : List (Key × Value)} {written : Value}
    (distinct : (edits.map Prod.fst).Nodup) :
    ((edits.map fun edit => (edit.1, some edit.2)).foldl write
        (∅ : AList fun _ : Key => Value)).lookup value = some written ↔
      (value, written) ∈ edits := by
  induction edits using List.reverseRecOn with
  | nil =>
      rw [List.map_nil, List.foldl_nil, AList.lookup_empty]
      exact ⟨nofun, nofun⟩
  | append_singleton edits edit induction =>
      rw [List.map_append, List.nodup_append] at distinct
      rw [List.map_append, List.foldl_append, List.map_cons, List.map_nil,
        List.foldl_cons, List.foldl_nil, lookup_write, List.mem_append,
        List.mem_singleton]
      by_cases same : edit.1 = value
      · have unlisted : (value, written) ∉ edits := fun member =>
          distinct.2.2 value (List.mem_map.mpr ⟨_, member, rfl⟩) edit.1
            List.mem_cons_self same.symm
        rw [if_pos same, Option.some.injEq]
        constructor
        · rintro rfl
          exact Or.inr (Prod.ext same.symm rfl)
        · rintro (member | rfl)
          · exact (unlisted member).elim
          · rfl
      · have other : ¬ (value, written) = edit := by
          rintro rfl
          exact same rfl
        rw [if_neg same, induction distinct.1]
        exact ⟨Or.inl, fun either => either.resolve_right other⟩

end Writing

end Limestone.Library.LastSeen
