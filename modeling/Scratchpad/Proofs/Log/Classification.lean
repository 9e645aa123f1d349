import Scratchpad.Log.MarkerSearch
import Scratchpad.Proofs.Log.Tagging

/-!
# What a line is read as

The grammar of a line says what its entry is, without saying how to find it: the carriage return at the end,
the tag at the beginning, and the leftmost marker with the number that its digits stand for. Every line has
exactly one entry by that grammar, and reading the line finds it. Looking for the marker by offsets finds the
same one. It never cuts within a character, and it misses no marker when it goes on behind an opening, since the
only opening bracket of an opening is its first character.

## Main definitions

* `DropsSeparator`, `DropsReturn`: a text without what may stand at its beginning or its end.
* `Tagged`: a line, its method, and what it says.
* `IsFirstMarker`: the leftmost marker of a text.
* `Marked`: a text, the line of source that it names, and its content.
* `Classified`: a line and its entry.

## Main statements

* `searchMarker?_zero`: what is found by offsets.
* `firstMarker?_eq_some_iff`, `splitMarker_eq_iff`, `splitTag_eq_iff`: a line is read by its grammar.
* `Entry.ofLine_classifies`: the entry of every line.
-/

namespace Scratchpad.Log

open Number Text

/-! ## The grammar -/

/-- A text without the separator at its beginning, if there is one. -/
inductive DropsSeparator : List Char → List Char → Prop where
  | separator (cs : List Char) : DropsSeparator (separator :: cs) cs
  | none {cs : List Char} (h : cs.head? ≠ some Log.separator) : DropsSeparator cs cs

/-- A line without the carriage return at its end, if there is one. -/
inductive DropsReturn : List Char → List Char → Prop where
  | carriageReturn (cs : List Char) : DropsReturn (cs ++ ['\r']) cs
  | none {cs : List Char} (h : cs.getLast? ≠ some '\r') : DropsReturn cs cs

/-- The method of a line, and what the line says. -/
inductive Tagged : List Char → Method → List Char → Prop where
  | tag (m : Method) {behind text : List Char} (h : DropsSeparator behind text) :
    Tagged (m.tag.toList ++ behind) m text
  | none {cs : List Char} (h : ∀ m : Method, ¬ m.tag.toList <+: cs) : Tagged cs .log cs

/-- A text from the beginning of a marker on. -/
def fromMarker (digits after : List Char) : List Char :=
  markerOpening.toList ++ digits ++ markerClosing.toList ++ after

/-- What stands before the leftmost marker of a text, its digits, and what follows it. -/
structure IsFirstMarker (cs before digits after : List Char) : Prop where
  ne_nil : digits ≠ []
  isDigit : ∀ d ∈ digits, d.isDigit
  parts : cs = before ++ fromMarker digits after
  leftmost : ∀ before' digits' after', digits' ≠ [] → (∀ d ∈ digits', d.isDigit) →
    cs = before' ++ fromMarker digits' after' → before.length ≤ before'.length

/-- The line of source that a text names, and its content. A number that is no line is left in the text, and
no further marker is looked for. -/
inductive Marked : List Char → Option UInt32 → List Char → Prop where
  | line {cs before digits after text : List Char} {n : UInt32} (h : IsFirstMarker cs before digits after)
    (hpos : 0 < n) (hn : natOfDigits digits = n.toNat) (htext : DropsSeparator after text) :
    Marked cs (some n) (before ++ text)
  | noLine {cs before digits after : List Char} (h : IsFirstMarker cs before digits after)
    (hn : natOfDigits digits = 0 ∨ UInt32.size ≤ natOfDigits digits) : Marked cs none cs
  | unmarked {cs : List Char} (h : ¬ HoldsMarker cs) : Marked cs none cs

/-- The entry of a line by the grammar. -/
def Classified (matchLines : Bool) (cs : List Char) (e : Entry) : Prop :=
  ∃ line text, DropsReturn cs line ∧ Tagged line e.method text ∧
    if matchLines then Marked text e.line e.content.toList else e.line = none ∧ e.content.toList = text

/-! ## Reading by the grammar -/

theorem afterSeparator_eq_iff {cs text : List Char} : afterSeparator cs = text ↔ DropsSeparator cs text := by
  constructor
  · rintro rfl
    cases cs with
    | nil => exact .none (by simp)
    | cons c cs =>
      by_cases hc : c = separator
      · subst hc
        rw [afterSeparator_cons]
        exact .separator cs
      · have hkept : afterSeparator (c :: cs) = c :: cs := by simp [afterSeparator, afterOpening?, Ne.symm hc]
        rw [hkept]
        exact .none (by simpa using hc)
  · rintro (_ | hhead)
    · exact afterSeparator_cons text
    · cases cs with
      | nil => rfl
      | cons c cs =>
        have hc : separator ≠ c := fun heq => hhead (by rw [heq, List.head?_cons])
        simp [afterSeparator, afterOpening?, hc]

theorem withoutCarriageReturn_eq_iff {cs line : List Char} :
    withoutCarriageReturn cs = line ↔ DropsReturn cs line := by
  constructor
  · rintro rfl
    by_cases hlast : cs.getLast? = some '\r'
    · obtain ⟨front, rfl⟩ := List.getLast?_eq_some_iff.mp hlast
      rw [withoutCarriageReturn, if_pos hlast, List.dropLast_concat]
      exact .carriageReturn front
    · rw [withoutCarriageReturn, if_neg hlast]
      exact .none hlast
  · rintro (_ | hlast)
    · rw [withoutCarriageReturn, if_pos List.getLast?_concat, List.dropLast_concat]
    · rw [withoutCarriageReturn, if_neg hlast]

theorem afterOpening?_eq_none_iff {opening cs : List Char} :
    afterOpening? opening cs = none ↔ ¬ opening <+: cs := by
  constructor
  · rintro hnone ⟨rest, rfl⟩
    rw [afterOpening?_append] at hnone
    cases hnone
  · intro hprefix
    cases hrest : afterOpening? opening cs with
    | none => rfl
    | some rest => exact absurd ⟨rest, (eq_append_of_afterOpening? hrest).symm⟩ hprefix

/-- **The tag of a line is found**, and it is the only one that the line begins with. -/
theorem splitTag_eq_iff {cs text : List Char} {m : Method} : splitTag cs = (m, text) ↔ Tagged cs m text := by
  constructor
  · intro h
    rw [splitTag] at h
    split at h
    · rename_i hfound
      obtain ⟨_, -, hrest⟩ := List.exists_of_findSome?_eq_some hfound
      obtain ⟨rest', hopening, hpair⟩ := Option.map_eq_some_iff.mp hrest
      cases hpair
      cases h
      rw [eq_append_of_afterOpening? hopening]
      exact .tag m (afterSeparator_eq_iff.mp rfl)
    · rename_i hnone
      cases h
      refine .none fun m => ?_
      have hm := List.findSome?_eq_none_iff.mp hnone m (Method.mem_all m)
      exact afterOpening?_eq_none_iff.mp (Option.map_eq_none_iff.mp hm)
  · rintro (hbehind | hnone)
    · rename_i behind hbehind
      rw [← afterSeparator_eq_iff.mpr hbehind]
      cases m <;> simp [splitTag, Method.all, Method.tag, afterOpening?]
    · have hfound : (Method.all.findSome? fun m => (afterOpening? m.tag.toList cs).map fun rest => (m, rest)) =
          none :=
        List.findSome?_eq_none_iff.mpr fun m _ =>
          Option.map_eq_none_iff.mpr (afterOpening?_eq_none_iff.mpr (hnone m))
      simp only [splitTag, hfound]

/-! ## The leftmost marker -/

theorem markerAt?_fromMarker {digits : List Char} (hne : digits ≠ []) (hdigits : ∀ d ∈ digits, d.isDigit)
    (after : List Char) : markerAt? (fromMarker digits after) = some (digits, after) :=
  markerAt?_marker hne hdigits after

/-- A marker that is found is the leftmost one. -/
theorem isFirstMarker_of_firstMarker? {cs before digits after : List Char}
    (h : firstMarker? cs = some (before, digits, after)) : IsFirstMarker cs before digits after := by
  induction cs generalizing before with
  | nil => cases h
  | cons c cs ih =>
    rw [firstMarker?] at h
    cases hat : markerAt? (c :: cs) with
    | some found =>
      simp only [hat, Option.some.injEq, Prod.mk.injEq] at h
      obtain ⟨rfl, rfl, rfl⟩ := h
      obtain ⟨hne, hdigits, hparts⟩ := eq_append_of_markerAt? hat
      exact ⟨hne, hdigits, hparts, fun before' digits' after' _ _ _ => Nat.zero_le _⟩
    | none =>
      simp only [hat] at h
      obtain ⟨⟨before₀, digits₀, after₀⟩, hfirst, hparts⟩ := Option.map_eq_some_iff.mp h
      cases hparts
      obtain ⟨hne, hdigits, rfl, hleftmost⟩ := ih hfirst
      refine ⟨hne, hdigits, rfl, fun before' digits' after' hne' hdigits' hparts' => ?_⟩
      cases before' with
      | nil =>
        rw [hparts', List.nil_append, markerAt?_fromMarker hne' hdigits'] at hat
        cases hat
      | cons b before' =>
        have hle := hleftmost before' digits' after' hne' hdigits' (List.cons.inj hparts').2
        exact Nat.succ_le_succ hle

/-- There is only one leftmost marker. -/
theorem IsFirstMarker.unique {cs before digits after before' digits' after' : List Char}
    (h : IsFirstMarker cs before digits after) (h' : IsFirstMarker cs before' digits' after') :
    before = before' ∧ digits = digits' ∧ after = after' := by
  have hle := h.leftmost before' digits' after' h'.ne_nil h'.isDigit h'.parts
  have hge := h'.leftmost before digits after h.ne_nil h.isDigit h.parts
  obtain ⟨hbefore, hfrom⟩ := List.append_inj (h.parts.symm.trans h'.parts) (Nat.le_antisymm hle hge)
  have hat := markerAt?_fromMarker h.ne_nil h.isDigit after
  rw [hfrom, markerAt?_fromMarker h'.ne_nil h'.isDigit] at hat
  cases hat
  exact ⟨hbefore, rfl, rfl⟩

theorem IsFirstMarker.holdsMarker {cs before digits after : List Char}
    (h : IsFirstMarker cs before digits after) : HoldsMarker cs :=
  ⟨before, digits, after, h.ne_nil, h.isDigit, by rw [h.parts]; simp [fromMarker]⟩

/-- **The marker that is found is the leftmost one**, and if there is a marker, one is found. -/
theorem firstMarker?_eq_some_iff {cs before digits after : List Char} :
    firstMarker? cs = some (before, digits, after) ↔ IsFirstMarker cs before digits after := by
  constructor
  · exact isFirstMarker_of_firstMarker?
  · intro h
    cases hfirst : firstMarker? cs with
    | none => exact absurd h.holdsMarker ((firstMarker?_eq_none_iff cs).mp hfirst)
    | some found =>
      obtain ⟨rfl, rfl, rfl⟩ := (isFirstMarker_of_firstMarker? hfirst).unique h
      rfl

theorem lineOfDigits?_eq_some_iff {digits : List Char} {n : UInt32} :
    lineOfDigits? digits = some n ↔ 0 < n ∧ natOfDigits digits = n.toNat := by
  have hpos : 0 < n ↔ 0 < n.toNat := UInt32.lt_iff_toNat_lt
  have hlt := n.toNat_lt_size
  rw [lineOfDigits?, hpos]
  constructor
  · intro h
    split at h
    · rename_i hrange
      simp only [Bool.and_eq_true, decide_eq_true_eq] at hrange
      cases h
      rw [UInt32.toNat_ofNat_of_lt' hrange.2]
      exact ⟨hrange.1, rfl⟩
    · cases h
  · rintro ⟨hpos, hn⟩
    simp [hn, hpos, hlt]

theorem lineOfDigits?_eq_none_iff {digits : List Char} :
    lineOfDigits? digits = none ↔ natOfDigits digits = 0 ∨ UInt32.size ≤ natOfDigits digits := by
  rw [lineOfDigits?]
  split
  · rename_i hrange
    simp only [Bool.and_eq_true, decide_eq_true_eq] at hrange
    simp
    omega
  · rename_i hrange
    simp only [Bool.and_eq_true, decide_eq_true_eq] at hrange
    simp
    omega

/-- **The line that a text names and its content** are those of its leftmost marker. -/
theorem splitMarker_eq_iff {cs content : List Char} {line : Option UInt32} :
    splitMarker cs = (line, content) ↔ Marked cs line content := by
  constructor
  · intro h
    rw [splitMarker] at h
    split at h
    · rename_i hfirst
      cases h
      exact .unmarked ((firstMarker?_eq_none_iff cs).mp hfirst)
    · rename_i hfirst
      have hmarker := firstMarker?_eq_some_iff.mp hfirst
      split at h
      · rename_i hline
        cases h
        obtain ⟨hpos, hn⟩ := lineOfDigits?_eq_some_iff.mp hline
        exact .line hmarker hpos hn (afterSeparator_eq_iff.mp rfl)
      · rename_i hline
        cases h
        exact .noLine hmarker (lineOfDigits?_eq_none_iff.mp hline)
  · rintro (⟨hmarker, hpos, hn, htext⟩ | ⟨hmarker, hn⟩ | hnone)
    · have hline := lineOfDigits?_eq_some_iff.mpr ⟨hpos, hn⟩
      simp only [splitMarker, firstMarker?_eq_some_iff.mpr hmarker, hline, afterSeparator_eq_iff.mpr htext]
    · have hline := lineOfDigits?_eq_none_iff.mpr hn
      simp only [splitMarker, firstMarker?_eq_some_iff.mpr hmarker, hline]
    · exact splitMarker_of_not_holdsMarker hnone

/-! ## Digits as bytes -/

theorem isDigit_iff {c : Char} : c.isDigit = true ↔ 48 ≤ c.val.toNat ∧ c.val.toNat ≤ 57 := by
  rw [Char.isDigit, Bool.and_eq_true, decide_eq_true_eq, decide_eq_true_eq, ge_iff_le, UInt32.le_iff_toNat_le,
    UInt32.le_iff_toNat_le]
  exact Iff.rfl

theorem isDigitByte_ofNat {n : Nat} (h : n < 256) :
    isDigitByte (UInt8.ofNat n) = true ↔ 48 ≤ n ∧ n ≤ 57 := by
  rw [isDigitByte, Bool.and_eq_true, decide_eq_true_eq, decide_eq_true_eq, UInt8.le_iff_toNat_le,
    UInt8.le_iff_toNat_le, UInt8.toNat_ofNat_of_lt' h]
  exact Iff.rfl

/-- The first byte of a character tells whether it is a digit, and a digit takes no other byte. -/
theorem exists_utf8EncodeChar (c : Char) : ∃ b bs, String.utf8EncodeChar c = b :: bs ∧
    (isDigitByte b = true ↔ c.isDigit = true) ∧ (c.isDigit = true → bs = []) := by
  rw [isDigit_iff]
  have hnumber : c.val.toNat = c.toNat := rfl
  rw [hnumber, utf8EncodeChar_eq]
  generalize c.toNat = v
  split
  · exact ⟨_, _, rfl, isDigitByte_ofNat (by omega), fun _ => rfl⟩
  · split
    · exact ⟨_, _, rfl, (isDigitByte_ofNat (by omega)).trans (by omega), by omega⟩
    · split
      · exact ⟨_, _, rfl, (isDigitByte_ofNat (by omega)).trans (by omega), by omega⟩
      · exact ⟨_, _, rfl, (isDigitByte_ofNat (by omega)).trans (by omega), by omega⟩

/-- The bytes that are counted are those of the digits at the beginning. -/
theorem countDigits_eq (cs : List Char) : countDigits cs = byteLength (cs.takeWhile Char.isDigit) := by
  induction cs with
  | nil => rfl
  | cons c cs ih =>
    obtain ⟨b, bs, hbytes, hdigit, hsingle⟩ := exists_utf8EncodeChar c
    have hsize : c.utf8Size = bs.length + 1 := by
      rw [← String.length_utf8EncodeChar, hbytes, List.length_cons]
    by_cases hc : c.isDigit = true
    · have hcount : countDigits (c :: cs) = countDigits cs + 1 := by
        rw [countDigits, List.flatMap_cons, hbytes, hsingle hc, List.singleton_append,
          List.takeWhile_cons_of_pos (hdigit.mpr hc), List.length_cons, countDigits]
      rw [hcount, List.takeWhile_cons_of_pos hc, byteLength_cons, hsize, hsingle hc, ih, List.length_nil]
      omega
    · have hb : ¬ isDigitByte b = true := fun h => hc (hdigit.mp h)
      rw [countDigits, List.flatMap_cons, hbytes, List.cons_append, List.takeWhile_cons_of_neg hb,
        List.takeWhile_cons_of_neg hc]
      rfl

theorem le_foldl_digits (digits : List Char) (n : Nat) :
    n ≤ digits.foldl (fun n d => n * 10 + digitValue d) n := by
  induction digits generalizing n with
  | nil => exact Nat.le_refl n
  | cons d digits ih =>
    have hle := ih (n * 10 + digitValue d)
    rw [List.foldl_cons]
    omega

/-- The checks at the digits refuse a number if and only if it does not fit. -/
theorem wordOfDigits?_eq_some_iff {digits : List Char} {n : UInt32} :
    wordOfDigits? digits = some n ↔ natOfDigits digits = n.toNat := by
  rw [wordOfDigits?, natOfDigits]
  have hzero : (0 : UInt32).toNat = 0 := rfl
  rw [← hzero]
  generalize (0 : UInt32) = word
  induction digits generalizing word with
  | nil => simp [UInt32.toNat_inj]
  | cons d digits ih =>
    rw [List.foldlM_cons, List.foldl_cons]
    by_cases hfits : word.toNat * 10 + digitValue d < UInt32.size
    · simp only [hfits, if_true, Option.bind_eq_bind, Option.bind_some]
      refine (ih (UInt32.ofNat (word.toNat * 10 + digitValue d))).trans ?_
      rw [UInt32.toNat_ofNat_of_lt' hfits]
    · have hle := le_foldl_digits digits (word.toNat * 10 + digitValue d)
      have hlt := n.toNat_lt_size
      simp only [hfits, if_false, Option.bind_eq_bind, Option.bind_none]
      constructor
      · rintro ⟨⟩
      · intro hn
        omega

theorem filter_wordOfDigits? (digits : List Char) :
    (wordOfDigits? digits).filter (0 < ·) = lineOfDigits? digits := by
  ext n
  rw [Option.filter_eq_some_iff, wordOfDigits?_eq_some_iff, lineOfDigits?_eq_some_iff, decide_eq_true_eq]
  exact And.comm

/-! ## Looking by offsets -/

theorem markerAt?_of_not_prefix {cs : List Char} (h : ¬ markerOpening.toList <+: cs) : markerAt? cs = none := by
  rw [markerAt?, afterOpening?_eq_none_iff.mpr h]
  rfl

/-- An opening begins a marker if digits follow and then the closing. -/
theorem markerAt?_opening (behind : List Char) :
    markerAt? (markerOpening.toList ++ behind) =
      if (behind.takeWhile Char.isDigit).isEmpty then none
      else (afterOpening? markerClosing.toList (behind.dropWhile Char.isDigit)).map
        (behind.takeWhile Char.isDigit, ·) := by
  simp only [markerAt?, afterOpening?_append, Option.bind_eq_bind, Option.bind_some, Option.pure_def,
    Option.map_eq_bind, Function.comp_def]

theorem firstMarker?_of_markerAt? {cs digits after : List Char} (h : markerAt? cs = some (digits, after)) :
    firstMarker? cs = some ([], digits, after) := by
  cases cs with
  | nil => cases h
  | cons c cs => rw [firstMarker?, h]

/-- Characters at which no marker begins are passed over. -/
theorem firstMarker?_append {front rest : List Char}
    (h : ∀ xs ys, front = xs ++ ys → ys ≠ [] → markerAt? (ys ++ rest) = none) :
    firstMarker? (front ++ rest) = (firstMarker? rest).map fun found => (front ++ found.1, found.2) := by
  induction front with
  | nil => simp
  | cons c front ih =>
    have hat : markerAt? (c :: (front ++ rest)) = none := h [] (c :: front) rfl (List.cons_ne_nil c front)
    have hfront := ih fun xs ys hparts hys => h (c :: xs) ys (by rw [hparts, List.cons_append]) hys
    rw [List.cons_append, firstMarker?, hat, hfront]
    cases firstMarker? rest <;> rfl

/-- No marker begins within the opening of another: an opening has one bracket only, and begins with it. -/
theorem not_isPrefix_of_opening {xs ys behind : List Char} (h : markerOpening.toList = xs ++ ys)
    (hxs : xs ≠ []) (hys : ys ≠ []) : ¬ markerOpening.toList <+: ys ++ behind := by
  have hbracket : '[' ∉ markerOpening.toList.tail := by decide
  have hhead : markerOpening.toList.head? = some '[' := by decide
  rintro ⟨rest, hrest⟩
  obtain ⟨y, ys, rfl⟩ := List.exists_cons_of_ne_nil hys
  obtain ⟨x, xs, rfl⟩ := List.exists_cons_of_ne_nil hxs
  have hy := congrArg List.head? hrest
  rw [List.head?_append, hhead] at hy
  obtain rfl : '[' = y := by simpa using hy
  exact hbracket (by rw [h]; simp)

/-- What is seen in the rest of a text, behind the bytes of what has been passed. -/
inductive Sees (passed rest : List Char) : Sight → Prop where
  | nothing (h : firstMarker? rest = none) : Sees passed rest .nothing
  /-- Nothing is missed when the search goes on behind the opening. -/
  | malformed {front behind : List Char} (hparts : rest = front ++ (markerOpening.toList ++ behind))
    (h : firstMarker? rest = (firstMarker? behind).map fun found =>
      (front ++ markerOpening.toList ++ found.1, found.2)) :
    Sees passed rest (.malformed (byteLength (passed ++ (front ++ markerOpening.toList))))
  | marker {front digits after : List Char} (hparts : rest = front ++ fromMarker digits after)
    (h : firstMarker? rest = some (front, digits, after)) :
    Sees passed rest (.marker (byteLength (passed ++ front))
      (byteLength (passed ++ (front ++ markerOpening.toList)))
      (byteLength (passed ++ (front ++ markerOpening.toList) ++ digits)))

/-- Behind an opening that begins no marker, the first marker is that of the text behind it. -/
theorem firstMarker?_malformed {front behind : List Char}
    (hfront : ∀ xs ys, front = xs ++ ys → ys ≠ [] →
      ¬ markerOpening.toList <+: ys ++ (markerOpening.toList ++ behind))
    (hat : markerAt? (markerOpening.toList ++ behind) = none) :
    firstMarker? (front ++ (markerOpening.toList ++ behind)) =
      (firstMarker? behind).map fun found => (front ++ markerOpening.toList ++ found.1, found.2) := by
  rw [← List.append_assoc]
  refine firstMarker?_append fun xs ys hparts hys => ?_
  rcases List.append_eq_append_iff.mp hparts with ⟨part, hxs, hopening⟩ | ⟨part, hfrontParts, hysParts⟩
  · rcases part with _ | ⟨p, part⟩
    · rw [List.nil_append] at hopening
      rw [← hopening, hat]
    · exact markerAt?_of_not_prefix (not_isPrefix_of_opening hopening (List.cons_ne_nil p part) hys)
  · rcases part with _ | ⟨p, part⟩
    · rw [hysParts, List.nil_append, hat]
    · rw [hysParts, List.append_assoc]
      exact markerAt?_of_not_prefix (hfront xs (p :: part) hfrontParts (List.cons_ne_nil p part))

/-- **Looking from a place between two characters on sees what is there**, and cuts between characters only. -/
theorem exists_sight (passed rest : List Char) :
    ∃ sight, lookFrom? (passed ++ rest) (byteLength passed) = some sight ∧ Sees passed rest sight := by
  simp only [lookFrom?, cutAt?_byteLength, Option.bind_eq_bind, Option.bind_some, Option.pure_def]
  cases hfound : offsetOf? markerOpening.toList rest with
  | none =>
    have hnone : firstMarker? (rest ++ []) = none := by
      rw [firstMarker?_append]
      · rfl
      · intro xs ys hparts _
        rw [List.append_nil]
        exact markerAt?_of_not_prefix (not_isPrefix_of_offsetOf? hfound xs ys hparts)
    rw [List.append_nil] at hnone
    exact ⟨.nothing, rfl, .nothing hnone⟩
  | some found =>
    obtain ⟨front, behind, rfl, rfl, hfront⟩ := exists_of_offsetOf? hfound
    have hdigits : byteLength passed + byteLength front + byteLength markerOpening.toList =
        byteLength (passed ++ (front ++ markerOpening.toList)) := by
      simp only [byteLength_append, Nat.add_assoc]
    have hbehind : passed ++ (front ++ (markerOpening.toList ++ behind)) =
        passed ++ (front ++ markerOpening.toList) ++ behind := by
      simp only [List.append_assoc]
    have hclosing : byteLength (passed ++ (front ++ markerOpening.toList)) + countDigits behind =
        byteLength (passed ++ (front ++ markerOpening.toList) ++ behind.takeWhile Char.isDigit) := by
      rw [countDigits_eq, byteLength_append _ (behind.takeWhile Char.isDigit)]
    simp only [hdigits, hbehind, hclosing, cutAt?_byteLength, Option.bind_some]
    by_cases hcount : countDigits behind = 0
    · -- no digits
      rw [if_pos hcount]
      rw [countDigits_eq, byteLength_eq_zero_iff] at hcount
      have hat : markerAt? (markerOpening.toList ++ behind) = none := by
        rw [markerAt?_opening, hcount]
        rfl
      exact ⟨_, rfl, .malformed rfl (firstMarker?_malformed hfront hat)⟩
    · have hrest : passed ++ (front ++ markerOpening.toList) ++ behind =
          passed ++ (front ++ markerOpening.toList) ++ behind.takeWhile Char.isDigit ++
            behind.dropWhile Char.isDigit := by
        rw [List.append_assoc _ (behind.takeWhile Char.isDigit), List.takeWhile_append_dropWhile]
      rw [if_neg hcount, hrest, cutAt?_byteLength, Option.bind_some]
      rw [countDigits_eq, byteLength_eq_zero_iff] at hcount
      by_cases hclosed : markerClosing.toList <+: behind.dropWhile Char.isDigit
      · -- closed digits
        rw [if_pos (List.isPrefixOf_iff_prefix.mpr hclosed), ← byteLength_append]
        obtain ⟨after, hafter⟩ := hclosed
        have hmarker : markerOpening.toList ++ behind = fromMarker (behind.takeWhile Char.isDigit) after := by
          rw [fromMarker, List.append_assoc, List.append_assoc, hafter, List.takeWhile_append_dropWhile]
        have hat : markerAt? (markerOpening.toList ++ behind) =
            some (behind.takeWhile Char.isDigit, after) := by
          rw [hmarker, markerAt?_fromMarker hcount (List.all_eq_true.mp List.all_takeWhile)]
        refine ⟨_, rfl, .marker (by rw [hmarker]) ?_⟩
        rw [firstMarker?_append fun xs ys hparts hys => markerAt?_of_not_prefix (hfront xs ys hparts hys),
          firstMarker?_of_markerAt? hat]
        simp
      · -- digits that nothing closes
        rw [if_neg fun h => hclosed (List.isPrefixOf_iff_prefix.mp h)]
        have hat : markerAt? (markerOpening.toList ++ behind) = none := by
          rw [markerAt?_opening, if_neg (by simpa using hcount), afterOpening?_eq_none_iff.mpr hclosed]
          rfl
        exact ⟨_, rfl, .malformed rfl (firstMarker?_malformed hfront hat)⟩

/-- A marker is taken out of a text by the offsets of its bracket, its digits and its end. -/
theorem takeMarker?_eq (before digits after : List Char) :
    takeMarker? (before ++ fromMarker digits after) (byteLength before)
        (byteLength (before ++ markerOpening.toList))
        (byteLength (before ++ markerOpening.toList ++ digits)) =
      match lineOfDigits? digits with
      | some line => some (some line, before ++ afterSeparator after)
      | none => some (none, before ++ fromMarker digits after) := by
  have hdigits : before ++ fromMarker digits after =
      before ++ markerOpening.toList ++ (digits ++ (markerClosing.toList ++ after)) := by
    simp only [fromMarker, List.append_assoc]
  have hafter : before ++ fromMarker digits after =
      before ++ markerOpening.toList ++ digits ++ markerClosing.toList ++ after := by
    simp only [hdigits, List.append_assoc]
  have hnumber : between? (byteLength (before ++ markerOpening.toList))
      (byteLength (before ++ markerOpening.toList ++ digits)) (before ++ fromMarker digits after) =
        some digits := by
    rw [hdigits, byteLength_append _ digits]
    exact between?_append ..
  have hcutAfter : cutAt? (byteLength (before ++ markerOpening.toList ++ digits) +
      byteLength markerClosing.toList) (before ++ fromMarker digits after) =
        some (before ++ markerOpening.toList ++ digits ++ markerClosing.toList, after) := by
    rw [hafter, ← byteLength_append]
    exact cutAt?_byteLength ..
  have hcutBefore : cutAt? (byteLength before) (before ++ fromMarker digits after) =
      some (before, fromMarker digits after) := cutAt?_byteLength ..
  simp only [takeMarker?, hnumber, filter_wordOfDigits?, Option.bind_eq_bind, Option.bind_some,
    Option.pure_def, hcutAfter, hcutBefore]
  cases lineOfDigits? digits <;> rfl

/-- **Looking by offsets finds what looking character by character finds**, from any place on that no marker
stands before. -/
theorem searchMarker?_append (passed rest : List Char)
    (h : firstMarker? (passed ++ rest) = (firstMarker? rest).map fun found => (passed ++ found.1, found.2)) :
    searchMarker? (passed ++ rest) (byteLength passed) = some (splitMarker (passed ++ rest)) := by
  obtain ⟨sight, hlook, hsees⟩ := exists_sight passed rest
  cases hsees with
  | nothing hnone =>
    rw [searchMarker?_of_nothing hlook, splitMarker, h, hnone]
    rfl
  | malformed hparts hbehind =>
    rename_i front behind
    have hpassed : passed ++ rest = passed ++ (front ++ markerOpening.toList) ++ behind := by
      simp only [hparts, List.append_assoc]
    have hlength : behind.length < rest.length := by
      have hopening : 0 < markerOpening.toList.length := by decide
      simp only [hparts, List.length_append]
      omega
    rw [searchMarker?_of_malformed hlook, hpassed]
    refine searchMarker?_append _ behind ?_
    rw [← hpassed, h, hbehind, Option.map_map]
    simp [Function.comp_def]
  | marker hparts hfirst =>
    rename_i front digits after
    have hall : passed ++ rest = passed ++ front ++ fromMarker digits after := by
      rw [hparts, List.append_assoc]
    rw [searchMarker?_of_marker hlook, splitMarker, h, hfirst, ← List.append_assoc passed front, hall,
      takeMarker?_eq]
    simp only [Option.map_some]
    cases lineOfDigits? digits <;> rfl
termination_by rest.length

theorem searchMarker?_zero (cs : List Char) : searchMarker? cs 0 = some (splitMarker cs) := by
  refine searchMarker?_append [] cs ?_
  simp

/-! ## Classification -/

/-- **Every line is read as its entry by the grammar says**, and that is the only one. A carriage return at the
end is dropped. A tag at the beginning gives the method and is dropped with one separator. The leftmost marker
gives the line of source, and is dropped with one separator, if its digits stand for a line, whatever malformed
markers stand around it. Looking for the marker by offsets comes to an end, cuts between characters only, and
gives the same entry. -/
theorem Entry.ofLine_classifies (matchLines : Bool) (cs : List Char) :
    Entry.ofLine? matchLines cs = some (Entry.ofLine matchLines cs) ∧
      ∀ e, Classified matchLines cs e ↔ e = Entry.ofLine matchLines cs := by
  constructor
  · simp only [Entry.ofLine?, Entry.ofLine, searchMarker?_zero]
    cases matchLines <;> rfl
  · intro e
    constructor
    · rintro ⟨line, text, hline, htag, hmarked⟩
      obtain ⟨method, number, content⟩ := e
      rw [Entry.ofLine, withoutCarriageReturn_eq_iff.mpr hline, splitTag_eq_iff.mpr htag]
      cases matchLines with
      | false =>
        obtain ⟨rfl, rfl⟩ : number = none ∧ content.toList = text := hmarked
        simp
      | true =>
        have hsplit : splitMarker text = (number, content.toList) := splitMarker_eq_iff.mpr hmarked
        simp only [if_true, hsplit, String.ofList_toList]
    · rintro rfl
      refine ⟨_, (splitTag (withoutCarriageReturn cs)).2, withoutCarriageReturn_eq_iff.mp rfl,
        splitTag_eq_iff.mp rfl, ?_⟩
      cases matchLines with
      | false => exact ⟨rfl, String.toList_ofList⟩
      | true =>
        simp only [Entry.ofLine, if_true, String.toList_ofList]
        exact splitMarker_eq_iff.mp rfl

end Scratchpad.Log
