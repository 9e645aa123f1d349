import Scratchpad.Json.Document
import Scratchpad.Proofs.Json.Scalars

/-!
# Values read back

A text spells a value if it is a single line and the value is read from it in front of whatever ends a value. Strings
and whole numbers are spelled as they are written, a list is spelled by what spells its items, and an object by what
spells its fields.

## Main definitions

* `Spells`: a text from which a value is read.
* `Member`: a field of an object, with the text that spells its value.

## Main statements

* `spells_written`, `spells_toString`: strings and whole numbers.
* `spells_list`, `spells_object`: lists and objects.
* `Reader.document_of_takes`: a whole text.
-/

namespace Scratchpad.Json

open Reader

/-! ## Rows -/

/-- Texts in a row, with commas between them, and a comma in front unless they are the first ones. -/
def row (isFirst : Bool) : List (List Char) → List Char
  | [] => []
  | text :: texts => lead isFirst ++ text ++ row false texts

theorem newline_notMem_row (texts : List (List Char)) (h : ∀ text ∈ texts, '\n' ∉ text) (isFirst : Bool) :
    '\n' ∉ row isFirst texts := by
  induction texts generalizing isFirst with
  | nil => exact List.not_mem_nil
  | cons text texts ih =>
    obtain ⟨htext, htexts⟩ := List.forall_mem_cons.mp h
    have hlead : '\n' ∉ lead isFirst := by cases isFirst <;> decide
    simp [row, hlead, htext, ih htexts]

theorem intercalate_comma (texts : List (List Char)) : [','].intercalate texts = row true texts := by
  have hcons (text : List Char) (texts : List (List Char)) :
      [','].intercalate (text :: texts) = text ++ row false texts := by
    induction texts generalizing text with
    | nil => simp [row]
    | cons next texts ih => rw [List.intercalate_cons_cons, ih, List.append_assoc]; rfl
  cases texts with
  | nil => rfl
  | cons text texts => exact hcons text texts

theorem toList_writtenList (items : List String) :
    (writtenList items).toList = '[' :: (row true (items.map String.toList) ++ [']']) := by
  simp [writtenList, String.toList_intercalate, intercalate_comma]

/-- A field of an object: its name, and the text that spells its value. -/
structure Member where
  name : String
  text : String
  value : Value

namespace Member

/-- A field as it is written. -/
def spelling (m : Member) : String × String := (m.name, m.text)

/-- A field as it is read. -/
def meaning (m : Member) : String × Value := (m.name, m.value)

/-- The characters of a field. -/
def chars (m : Member) : List Char :=
  '"' :: (m.name.toList.flatMap writtenChar ++ '"' :: ':' :: m.text.toList)

end Member

theorem toList_writtenObject (members : List Member) :
    (writtenObject (members.map Member.spelling)).toList =
      '\x7b' :: (row true (members.map Member.chars) ++ ['\x7d']) := by
  have hchars : Member.chars = fun m => '"' :: (m.name.toList.flatMap writtenChar ++ '"' :: ':' :: m.text.toList) := rfl
  simp [writtenObject, String.toList_intercalate, intercalate_comma, Function.comp_def, Member.spelling, toList_written,
    hchars]

/-! ## Scalars -/

/-- A text is a line from which a value is read in front of whatever ends a value, to a depth of nesting. -/
structure Spells (depth : Nat) (s : String) (v : Value) : Prop where
  isLine : '\n' ∉ s.toList
  starts : ∃ c cs, s.toList = c :: cs ∧ isBlank c = false ∧ c ≠ ']'
  takes {fuel : Nat} {cs : List Char} : s.toList.length ≤ fuel → Ends cs →
    Takes (valueWithin fuel depth) (s.toList ++ cs) v cs

variable {depth : Nat} {s : String} {v : Value} {cs : List Char}

theorem takes_enough (cs : List Char) : Takes enough cs (2 * cs.length + 2) cs :=
  (takes_rest cs).bind (takes_pure _ cs)

theorem Spells.takes_value (h : Spells depth s v) (hcs : Ends cs) : Takes (value depth) (s.toList ++ cs) v cs := by
  refine (takes_enough _).bind (h.takes ?_ hcs)
  rw [List.length_append]
  omega

/-- A value that is no list and no object is spelled by what is read as such. -/
theorem spells_of_scalar {c : Char} {ds : List Char} (hs : s.toList = c :: ds) (hline : '\n' ∉ s.toList)
    (hblank : isBlank c = false)
    (hlist : c ≠ '[') (hobject : c ≠ '\x7b') (hclose : c ≠ ']')
    (h : ∀ cs, Ends cs → Takes (scalar c) (c :: (ds ++ cs)) v cs) : Spells depth s v where
  isLine := hline
  starts := ⟨c, ds, hs, hblank, hclose⟩
  takes := by
    intro fuel cs hfuel hcs
    rw [hs] at hfuel ⊢
    obtain ⟨fuel, rfl⟩ := Nat.exists_eq_add_of_le' (Nat.lt_of_lt_of_le (Nat.zero_lt_succ _) hfuel)
    rw [valueWithin]
    refine (takes_valueStart hblank _).bind ?_
    rw [if_neg hlist, if_neg hobject]
    exact h cs hcs

theorem spells_written (depth : Nat) (s : String) : Spells depth (written s) (.text s) := by
  refine spells_of_scalar (toList_written s) (newline_notMem_written s) rfl (by decide) (by decide) (by decide)
    fun cs _ => ?_
  rw [List.append_assoc]
  exact (takes_advance '"' _).bind ((takes_string s cs).map Value.text)

theorem isBlank_of_isDigit {c : Char} (h : c.isDigit = true) : isBlank c = false := by
  simp [isBlank, Number.ne_of_isDigit h]

/-- **A whole number is read back** if it is a word, be it a signed one. -/
theorem spells_toString (depth : Nat) {i : Int} (hlow : -(Number.twoTo 63 : Int) ≤ i) (hhigh : i ≤ largestWord) :
    Spells depth (toString i) (.whole i) := by
  obtain ⟨c, ds, hs, hdigit, htakes⟩ | ⟨ds, hs, htakes⟩ := takes_toString hlow hhigh
  · have hne {d : Char} : d.isDigit = false → c ≠ d := Number.ne_of_isDigit hdigit
    refine spells_of_scalar hs (Number.newline_notMem_toString i) (isBlank_of_isDigit hdigit) (hne rfl) (hne rfl)
      (hne rfl) fun cs hcs => ?_
    rw [scalar, if_neg (hne rfl), if_neg (hne rfl), if_neg (hne rfl), if_neg (hne rfl), if_pos hdigit]
    exact htakes cs hcs
  · refine spells_of_scalar hs (Number.newline_notMem_toString i) rfl (by decide) (by decide) (by decide)
      fun cs hcs => ?_
    exact (takes_advance '-' _).bind (htakes cs hcs)

/-! ## Lists and objects -/

theorem ends_cons {c : Char} (h : c = ',' ∨ c = ']' ∨ c = '\x7d') (cs : List Char) : Ends (c :: cs) := by
  rintro _ ⟨⟩
  exact h

/-- Before more texts in a row a value ends. -/
theorem ends_row (texts : List (List Char)) (hcs : Ends cs) : Ends (row false texts ++ cs) := by
  cases texts with
  | nil => exact hcs
  | cons => exact ends_cons (.inl rfl) _

theorem Spells.length_pos (h : Spells depth s v) : 0 < s.toList.length := by
  obtain ⟨c, cs, hs, -⟩ := h.starts
  exact hs ▸ Nat.zero_lt_succ _

theorem Spells.takes_hasItem (h : Spells depth s v) (isFirst : Bool) (cs : List Char) :
    Takes (hasItem isFirst) (lead isFirst ++ (s.toList ++ cs)) true (s.toList ++ cs) := by
  obtain ⟨c, ds, hs, hblank, hclose⟩ := h.starts
  rw [hs]
  exact Reader.takes_hasItem hblank hclose isFirst _

theorem takes_itemsWithin {α : Type} {text : α → String} {mean : α → Value} {items : List α}
    (h : ∀ item ∈ items, Spells depth (text item) (mean item)) {fuel : Nat} {isFirst : Bool}
    (hfuel : (row isFirst (items.map fun item => (text item).toList)).length < fuel) (cs : List Char) :
    Takes (itemsWithin fuel depth isFirst)
      (row isFirst (items.map fun item => (text item).toList) ++ ']' :: cs) (items.map mean) (']' :: cs) := by
  induction items generalizing fuel isFirst with
  | nil =>
    obtain ⟨fuel, rfl⟩ := Nat.exists_eq_succ_of_ne_zero (Nat.ne_zero_of_lt hfuel)
    rw [itemsWithin]
    exact (takes_hasItem_none isFirst cs).bind (takes_pure [] _)
  | cons item items ih =>
    obtain ⟨fuel, rfl⟩ := Nat.exists_eq_succ_of_ne_zero (Nat.ne_zero_of_lt hfuel)
    obtain ⟨hitem, hitems⟩ := List.forall_mem_cons.mp h
    have hpos := hitem.length_pos
    simp only [List.map_cons, row, List.append_assoc, List.length_append] at hfuel ⊢
    rw [itemsWithin]
    refine (hitem.takes_hasItem isFirst _).bind ?_
    refine (hitem.takes (by omega) (ends_row _ (ends_cons (.inr (.inl rfl)) cs))).bind ?_
    exact (ih hitems (by omega)).bind (takes_pure _ _)

/-- **A list is spelled by what spells its items.** -/
theorem spells_list {α : Type} {text : α → String} {mean : α → Value} {items : List α}
    (h : ∀ item ∈ items, Spells depth (text item) (mean item)) :
    Spells (depth + 1) (writtenList (items.map text)) (.list (items.map mean)) where
  isLine := by
    have hrow := newline_notMem_row (items.map fun item => (text item).toList)
      (by simpa using fun item hitem => (h item hitem).isLine) true
    simp [toList_writtenList, Function.comp_def, hrow]
  starts := ⟨'[', _, toList_writtenList _, rfl, by decide⟩
  takes := by
    intro fuel cs hfuel hcs
    rw [toList_writtenList, List.map_map, List.length_cons, List.length_append, List.length_singleton] at hfuel
    rw [toList_writtenList, List.map_map, List.cons_append, List.append_assoc, List.singleton_append]
    obtain ⟨fuel, rfl⟩ := Nat.exists_eq_succ_of_ne_zero (Nat.ne_zero_of_lt hfuel)
    rw [valueWithin]
    refine (takes_valueStart rfl _).bind ?_
    rw [if_pos rfl]
    refine Takes.enclosed ?_ (takes_listEnd cs) '['
    exact (takes_itemsWithin h (Nat.lt_of_succ_le (Nat.le_of_lt_succ hfuel)) cs).map Value.list

theorem takes_fieldsWithin {members : List Member} (h : ∀ m ∈ members, Spells depth m.text m.value) {fuel : Nat}
    {isFirst : Bool} (hfuel : (row isFirst (members.map Member.chars)).length < fuel) (cs : List Char) :
    Takes (fieldsWithin fuel depth isFirst) (row isFirst (members.map Member.chars) ++ '\x7d' :: cs)
      (members.map Member.meaning) ('\x7d' :: cs) := by
  induction members generalizing fuel isFirst with
  | nil =>
    obtain ⟨fuel, rfl⟩ := Nat.exists_eq_succ_of_ne_zero (Nat.ne_zero_of_lt hfuel)
    rw [fieldsWithin]
    exact (takes_hasName_none isFirst cs).bind (takes_pure [] _)
  | cons m members ih =>
    obtain ⟨fuel, rfl⟩ := Nat.exists_eq_succ_of_ne_zero (Nat.ne_zero_of_lt hfuel)
    obtain ⟨hm, hmembers⟩ := List.forall_mem_cons.mp h
    simp only [List.map_cons, row, Member.chars, List.append_assoc, List.cons_append, List.length_append,
      List.length_cons] at hfuel ⊢
    rw [fieldsWithin]
    refine (takes_hasName isFirst _).bind ((takes_advance '"' _).bind ((takes_string m.name _).bind ?_))
    refine (takes_colon _).bind ?_
    refine (hm.takes (by omega) (ends_row _ (ends_cons (.inr (.inr rfl)) cs))).bind ?_
    exact (ih hmembers (by omega)).bind (takes_pure _ _)

/-- **An object is spelled by what spells its fields.** -/
theorem spells_object {members : List Member} (h : ∀ m ∈ members, Spells depth m.text m.value) :
    Spells (depth + 1) (writtenObject (members.map Member.spelling)) (.object (members.map Member.meaning)) where
  isLine := by
    have hchars {m : Member} (hm : m ∈ members) : '\n' ∉ m.chars := by
      simp [Member.chars, newline_notMem_writtenChar, (h m hm).isLine]
    have hrow := newline_notMem_row (members.map Member.chars) (by simpa using fun m hm => hchars hm) true
    simp [toList_writtenObject, hrow]
  starts := ⟨'\x7b', _, toList_writtenObject _, rfl, by decide⟩
  takes := by
    intro fuel cs hfuel hcs
    rw [toList_writtenObject, List.length_cons, List.length_append, List.length_singleton] at hfuel
    rw [toList_writtenObject, List.cons_append, List.append_assoc, List.singleton_append]
    obtain ⟨fuel, rfl⟩ := Nat.exists_eq_succ_of_ne_zero (Nat.ne_zero_of_lt hfuel)
    rw [valueWithin]
    refine (takes_valueStart rfl _).bind ?_
    rw [if_neg (by decide), if_pos rfl]
    refine Takes.enclosed ?_ (takes_objectEnd cs) '\x7b'
    exact (takes_fieldsWithin h (by omega) cs).map Value.object

/-! ## Whole texts -/

/-- A text that is taken to its end holds what has been taken. -/
theorem Reader.document_of_takes {α : Type} {r : Reader α} {a : α} (h : Takes r s.toList a []) :
    document r s = .ok a := by
  have hnext : Takes next? [] none [] := (takes_skipWhile isBlank []).bind (takes_peek? [])
  have hwhole {f : α → Option Char → Reader α} (hf : f a none = pure a) :
      ((r >>= fun a => next? >>= f a).run (Cursor.start s.toList)).1 = .ok a := by
    have htakes : Takes (r >>= fun a => next? >>= f a) s.toList a [] := h.bind (hnext.bind (hf ▸ takes_pure a []))
    obtain ⟨line, column, hrun⟩ := htakes 1 0
    exact congrArg Prod.fst hrun
  exact hwhole rfl

end Scratchpad.Json
