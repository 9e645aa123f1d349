import Scratchpad.Json.Decoder
import Scratchpad.Proofs.Json.Values

/-!
# Data read back

A decoder takes the same from a text and from the value that the text spells. A record is read back if each of its
fields is, in whatever order they come, and a tagged record if what its kind makes of the other fields is.

## Main definitions

* `Decodes`: what a decoder takes from a text, and from the value that it spells.
* `Shape.Builds`: the draft that fields of an object build.

## Main statements

* `decodes_text`, `decodes_whole`, `decodes_optional`, `decodes_oneOf`: plain data.
* `decodes_shape`: records.
* `decodes_tagged`: tagged records.
-/

namespace Scratchpad.Json

open Reader

variable {α β δ : Type} {d : Decoder α} {depth : Nat} {s : String} {v : Value} {a : α}

/-- A decoder takes a datum from a text in front of whatever ends a value, and from the value that the text
spells. -/
structure Decodes (d : Decoder α) (depth : Nat) (s : String) (v : Value) (a : α) : Prop where
  fromText {cs : List Char} : Ends cs → Takes (d.fromText depth) (s.toList ++ cs) a cs
  fromValue : d.fromValue v = .ok a

/-- A datum is read back from a text that holds nothing else. -/
theorem Decodes.document (h : Decodes d depth s v a) : document (d.fromText depth) s = .ok a := by
  have htext : Takes (d.fromText depth) (s.toList ++ []) a [] := h.fromText (by rintro _ ⟨⟩)
  rw [List.append_nil] at htext
  exact document_of_takes htext

/-! ## Plain data -/

theorem Decodes.map (h : Decodes d depth s v a) (f : α → β) : Decodes (d.map f) depth s v (f a) where
  fromText hcs := (h.fromText hcs).map f
  fromValue := by
    change f <$> d.fromValue v = .ok (f a)
    rw [h.fromValue]
    rfl

theorem takes_ofString {expected : String} {f : String → Except Flaw α} (h : f s = .ok a) (cs : List Char) :
    Takes ((Decoder.ofString expected f).fromText depth) ((written s).toList ++ cs) a cs := by
  rw [toList_written, List.cons_append, List.append_assoc, List.singleton_append]
  refine (takes_valueStart rfl _).bind ?_
  rw [if_pos rfl]
  refine Takes.placed ((takes_advance '"' _).bind ((takes_string s cs).bind ?_))
  rw [h]
  exact takes_pure a cs

theorem decodes_text (depth : Nat) (s : String) : Decodes Decoder.text depth (written s) (.text s) s where
  fromText _ := takes_ofString rfl _
  fromValue := rfl

theorem decodes_whole {least greatest : Int} {expected : String} {i : Int} (hlow : -(Number.twoTo 63 : Int) ≤ i)
    (hhigh : i ≤ largestWord) (hleast : least ≤ i) (hgreatest : i ≤ greatest) :
    Decodes (Decoder.whole least greatest expected) depth (toString i) (.whole i) i where
  fromText := by
    intro cs hcs
    have hwithin : Decoder.within least greatest expected (.whole i) = .ok i := by
      simp [Decoder.within, hleast, hgreatest]
    have hlift : Takes (Decoder.lift (Decoder.within least greatest expected (.whole i))) cs i cs := by
      rw [hwithin]
      exact takes_pure i cs
    obtain ⟨c, ds, hs, hdigit, htakes⟩ | ⟨ds, hs, htakes⟩ := takes_toString hlow hhigh
    · rw [hs]
      refine (takes_valueStart (isBlank_of_isDigit hdigit) _).bind ?_
      rw [if_neg (Number.ne_of_isDigit hdigit rfl), if_pos hdigit]
      exact ((htakes cs hcs).bind hlift).placed
    · rw [hs]
      refine (takes_valueStart rfl _).bind ?_
      rw [if_pos rfl]
      exact ((takes_advance '-' _).bind ((htakes cs hcs).bind hlift)).placed
  fromValue := by simp [Decoder.whole, Decoder.within, hleast, hgreatest]

/-- What may be absent is read back, unless it begins like what is absent. -/
theorem decodes_optional (h : Decodes d depth s v a) (hstart : ∃ c cs, s.toList = c :: cs ∧ isBlank c = false ∧ c ≠ 'n')
    (hv : v ≠ .null) : Decodes d.optional depth s v (some a) where
  fromText := by
    intro cs hcs
    obtain ⟨c, ds, hs, hblank, hc⟩ := hstart
    have htext := (h.fromText hcs).map some
    rw [hs] at htext ⊢
    refine (takes_next? hblank _).bind ?_
    split
    · exact absurd (Option.some.inj ‹_›) hc
    · exact htext
  fromValue := by
    have hsome : d.optional.fromValue v = some <$> d.fromValue v := by
      cases v with
      | null => exact absurd rfl hv
      | _ => rfl
    rw [hsome, h.fromValue]
    rfl

theorem decodes_oneOf {variants : List (String × α)} {name : String} (h : variants.lookup name = some a) :
    Decodes (Decoder.oneOf variants) depth (written name) (.text name) a where
  fromText := by
    intro cs _
    have hname : Decoder.named variants name = .ok a := by rw [Decoder.named, h]
    have htext : Takes ((Decoder.ofString "variant identifier" (Decoder.named variants)).fromText depth)
        ((written name).toList ++ cs) a cs := takes_ofString hname cs
    rw [toList_written] at htext ⊢
    exact (takes_next? rfl _).bind htext
  fromValue := by simp [Decoder.oneOf, Decoder.named, h]

/-! ## Records -/

namespace Shape

variable {t : Shape δ α} {members : List Member} {draft built : δ}

/-- Fields of an object build a draft, one after the other. -/
inductive Builds (t : Shape δ α) (depth : Nat) : List Member → δ → δ → Prop
  | nil (draft : δ) : Builds t depth [] draft draft
  | cons {m : Member} {members : List Member} {field : Field δ} {add : δ → δ} {draft built : δ} :
    t.field? m.name = some field → field.isPresent draft = false →
    Decodes field.addition depth m.text m.value add →
    Builds t depth members (add draft) built → Builds t depth (m :: members) draft built

theorem Builds.takes_readFields (h : Builds t depth members draft built) {fuel : Nat} {isFirst : Bool}
    (hfuel : (row isFirst (members.map Member.chars)).length < fuel) (cs : List Char) :
    Takes (t.readFields depth fuel isFirst draft) (row isFirst (members.map Member.chars) ++ '\x7d' :: cs) built
      ('\x7d' :: cs) := by
  induction h generalizing fuel isFirst with
  | nil draft =>
    obtain ⟨fuel, rfl⟩ := Nat.exists_eq_succ_of_ne_zero (Nat.ne_zero_of_lt hfuel)
    rw [readFields]
    exact (takes_hasName_none isFirst cs).bind (takes_pure draft _)
  | @cons m members field add draft built hfield hpresent hadd hbuilds ih =>
    obtain ⟨fuel, rfl⟩ := Nat.exists_eq_succ_of_ne_zero (Nat.ne_zero_of_lt hfuel)
    simp only [List.map_cons, row, Member.chars, List.append_assoc, List.cons_append, List.length_append,
      List.length_cons] at hfuel ⊢
    rw [readFields]
    refine (takes_hasName isFirst _).bind ((takes_advance '"' _).bind ((takes_string m.name _).bind ?_))
    simp only [hfield, hpresent, Bool.false_eq_true, if_false]
    refine (takes_colon _).bind ?_
    refine (hadd.fromText (ends_row _ (ends_cons (.inr (.inr rfl)) cs))).bind ?_
    exact ih (by omega)

theorem Builds.ofFields_eq (h : Builds t depth members draft built) :
    t.ofFields (members.map Member.meaning) draft = .ok built := by
  induction h with
  | nil draft => rfl
  | @cons m members field add draft built hfield hpresent hadd hbuilds ih =>
    simp only [List.map_cons, Member.meaning, ofFields, hfield, hpresent, Bool.false_eq_true, if_false,
      hadd.fromValue]
    exact ih

/-- **A record is read back** if its fields build a complete draft. -/
theorem Builds.decodes (h : Builds t depth members t.blank built) (hcomplete : t.complete built = .ok a) :
    Decodes t.decoder (depth + 1) (writtenObject (members.map Member.spelling))
      (.object (members.map Member.meaning)) a where
  fromText := by
    intro cs _
    rw [toList_writtenObject, List.cons_append, List.append_assoc, List.singleton_append]
    refine (takes_valueStart rfl _).bind (Takes.placed (Takes.enclosed ?_ (takes_objectEnd cs) '\x7b'))
    refine (takes_enough _).bind ((h.takes_readFields (by rw [List.length_append]; omega) cs).bind ?_)
    rw [hcomplete]
    exact takes_pure a _
  fromValue := by
    simp only [Shape.decoder, fromValue, h.ofFields_eq]
    exact hcomplete

end Shape

/-! ## Tagged records -/

namespace Tagged

variable {t : Tagged α} {kind : Value → Except Flaw α} {members : List Member} {name : String}

/-- Behind the tag, all fields are kept as values. -/
theorem takes_readFields (h : ∀ m ∈ members, m.name ≠ t.tag ∧ Spells depth m.text m.value)
    (fields : List (String × Value)) {fuel : Nat} {isFirst : Bool}
    (hfuel : (row isFirst (members.map Member.chars)).length < fuel) (cs : List Char) :
    Takes (t.readFields depth fuel isFirst (some kind) fields)
      (row isFirst (members.map Member.chars) ++ '\x7d' :: cs)
      (kind, .object (fields.reverse ++ members.map Member.meaning)) ('\x7d' :: cs) := by
  induction members generalizing fuel isFirst fields with
  | nil =>
    obtain ⟨fuel, rfl⟩ := Nat.exists_eq_succ_of_ne_zero (Nat.ne_zero_of_lt hfuel)
    rw [readFields, List.map_nil, List.map_nil, List.append_nil]
    exact (takes_hasName_none isFirst cs).bind (takes_pure _ _)
  | cons m members ih =>
    obtain ⟨fuel, rfl⟩ := Nat.exists_eq_succ_of_ne_zero (Nat.ne_zero_of_lt hfuel)
    obtain ⟨⟨hname, hm⟩, hmembers⟩ := List.forall_mem_cons.mp h
    have hrest := @ih hmembers ((m.name, m.value) :: fields) fuel false
    rw [List.reverse_cons, List.append_assoc] at hrest
    simp only [List.map_cons, row, Member.chars, List.append_assoc, List.cons_append, List.length_append,
      List.length_cons] at hfuel ⊢
    rw [readFields]
    refine (takes_hasName isFirst _).bind ((takes_advance '"' _).bind ((takes_string m.name _).bind ?_))
    rw [if_neg hname]
    refine (takes_colon _).bind ?_
    refine (hm.takes_value (ends_row _ (ends_cons (.inr (.inr rfl)) cs))).bind ?_
    exact hrest (by omega)

theorem ofFields_eq (h : ∀ m ∈ members, m.name ≠ t.tag ∧ Spells depth m.text m.value)
    (fields : List (String × Value)) : t.ofFields (members.map Member.meaning) (some kind) fields =
      .ok (kind, .object (fields.reverse ++ members.map Member.meaning)) := by
  induction members generalizing fields with
  | nil => simp [ofFields]
  | cons m members ih =>
    obtain ⟨⟨hname, -⟩, hmembers⟩ := List.forall_mem_cons.mp h
    rw [List.map_cons, Member.meaning, ofFields, if_neg hname, ih hmembers, List.reverse_cons, List.append_assoc]
    rfl

/-- The field that holds a tag. -/
def tagMember (t : Tagged α) (name : String) : Member := ⟨t.tag, written name, .text name⟩

theorem takes_readFields_tag (hkind : t.kinds.lookup name = some kind)
    (h : ∀ m ∈ members, m.name ≠ t.tag ∧ Spells depth m.text m.value) {fuel : Nat}
    (hfuel : (row true ((t.tagMember name :: members).map Member.chars)).length < fuel) (cs : List Char) :
    Takes (t.readFields depth fuel true none [])
      (row true ((t.tagMember name :: members).map Member.chars) ++ '\x7d' :: cs)
      (kind, .object (members.map Member.meaning)) ('\x7d' :: cs) := by
  have hnamed : Decoder.named t.kinds name = .ok kind := by rw [Decoder.named, hkind]
  have htag (cs : List Char) :
      Takes ((Decoder.variant t.kinds).fromText depth) ((written name).toList ++ cs) kind cs :=
    takes_ofString hnamed cs
  obtain ⟨fuel, rfl⟩ := Nat.exists_eq_succ_of_ne_zero (Nat.ne_zero_of_lt hfuel)
  simp only [List.map_cons, row, Member.chars, tagMember, List.append_assoc, List.cons_append, List.length_append,
    List.length_cons] at hfuel ⊢
  rw [readFields]
  refine (takes_hasName true _).bind ((takes_advance '"' _).bind ((takes_string t.tag _).bind ?_))
  rw [if_pos rfl, if_neg (by simp)]
  exact (takes_colon _).bind ((htag _).bind (takes_readFields h [] (by omega) cs))

/-- **A tagged record is read back** if its kind makes it of the fields behind the tag. -/
theorem decodes (hkind : t.kinds.lookup name = some kind)
    (h : ∀ m ∈ members, m.name ≠ t.tag ∧ Spells depth m.text m.value)
    (ha : kind (.object (members.map Member.meaning)) = .ok a) :
    Decodes t.decoder (depth + 1) (writtenObject ((t.tagMember name :: members).map Member.spelling))
      (.object ((t.tagMember name :: members).map Member.meaning)) a where
  fromText := by
    intro cs _
    have hlift : Takes (Decoder.lift (kind (.object (members.map Member.meaning)))) cs a cs := by
      rw [ha]
      exact takes_pure a cs
    rw [toList_writtenObject, List.cons_append, List.append_assoc, List.singleton_append]
    refine Takes.bind (a := (kind, .object (members.map Member.meaning))) ?_ hlift
    refine (takes_valueStart rfl _).bind (Takes.placed (Takes.enclosed ?_ (takes_objectEnd cs) '\x7b'))
    exact (takes_enough _).bind (takes_readFields_tag hkind h (by rw [List.length_append]; omega) cs)
  fromValue := by
    have hnamed : t.kindOf (.text name) = .ok kind := by rw [kindOf, Decoder.named, hkind]
    have hfields : t.ofFields ((t.tagMember name :: members).map Member.meaning) none [] =
        .ok (kind, .object (members.map Member.meaning)) := by
      rw [List.map_cons, Member.meaning, tagMember, ofFields, if_pos rfl, if_neg (by simp), hnamed]
      exact ofFields_eq h []
    simp only [Tagged.decoder, fromValue, hfields]
    exact ha

end Tagged

end Scratchpad.Json
