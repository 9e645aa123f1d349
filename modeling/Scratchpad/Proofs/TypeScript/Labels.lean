import Scratchpad.Compilation
import Scratchpad.Proofs.TypeScript.Description

/-!
# What a source can say in its own complaint

A diagnostic quotes names and texts of the source, and the description of a fault is found by looking for
codes and for the word `message` in the whole diagnostic. So a source can choose what it is told: a label that
holds a known code selects the description of that code, and one that holds the word is read as a description.
It can do so in these two ways only. Quoting neither hides nor makes up what is looked for, and nothing that is
looked for lies across the border of a quotation.

## Main definitions

* `Fault.texts`, `Fault.quotes`: the names and texts that a diagnostic quotes, and what occurs in them.
* `Fault.told`: the description of a fault.
* `describeCode`, `Fault.IsQuiet`: the description of a fault by its code alone, and when it is that.
* `Brings`: what a piece of a text adds to what is found.

## Main statements

* `occursIn_quotedBody`: what is looked for occurs in a quotation if and only if it occurs in the text.
* `occursIn_diagnostic`, `description_eq_told`: where a code is found, and what the user is told.
* `compile_describes`: what a source is told, and when that depends on its names.
* `label_selects_description`: it does depend on them.
-/

namespace Scratchpad.TypeScript

open Scratchpad.Text

/-! ## Definitions -/

/-- The names and texts of a source that the diagnostic of a fault quotes. -/
def Fault.texts : Fault → List String
  | .expected token found => [token, found]
  | .unexpected found wanted => [found, wanted]
  | .strangeCharacter c => [c.toString]
  | .escapeInReservedWord word => [word]
  | .unaryBeforePower operand .. => [operand]
  | .reservedInStrictCode name | .duplicateLabel name | .importBindingIsText name | .nonNullOn name
  | .modifierNotHere name | .modifierTwice name | .duplicateExport name => [name]
  | .modifierOrder first second => [first, second]
  | _ => []

/-- Whether something occurs in a text that a fault quotes. -/
def Fault.quotes (f : Fault) (part : List Char) : Bool :=
  f.texts.any fun text => occursIn part text.toList

/-- The word before a description. -/
def messageWord : List Char := "message:".toList

/-- What is looked for in a diagnostic. -/
def sought : List (List Char) := messageWord :: knownCodes.map (·.1.toList)

/-- The description of a fault by its code alone. -/
def describeCode (code : String) : String :=
  match knownCodes.find? fun (known, _) => occursIn known.toList code.toList with
  | some (_, text) => text
  | none => "Syntax error"

/-! ## Looking in pieces -/

section

variable {part xs ys : List Char} {sep : Char}

theorem occursIn_nil (h : part ≠ []) : occursIn part [] = false := by
  cases part with
  | nil => exact absurd rfl h
  | cons p part => rfl

theorem isPrefixOf_cut (h : sep ∉ part) (xs ys : List Char) :
    part.isPrefixOf (xs ++ sep :: ys) = part.isPrefixOf xs := by
  induction part generalizing xs with
  | nil => simp
  | cons p part ih =>
    rw [List.mem_cons, not_or] at h
    cases xs with
    | nil => simp [List.isPrefixOf, Ne.symm h.1]
    | cons x xs => simp [List.isPrefixOf, ih h.2]

/-- **Nothing that is looked for lies across a character that it does not hold.** -/
theorem occursIn_cut (hne : part ≠ []) (h : sep ∉ part) (xs ys : List Char) :
    occursIn part (xs ++ sep :: ys) = (occursIn part xs || occursIn part ys) := by
  induction xs with
  | nil =>
    cases part with
    | nil => exact absurd rfl hne
    | cons p part =>
      rw [List.mem_cons, not_or] at h
      simp [occursIn, List.isPrefixOf, Ne.symm h.1]
  | cons x xs ih =>
    have hfirst : part.isPrefixOf (x :: xs ++ sep :: ys) = part.isPrefixOf (x :: xs) := isPrefixOf_cut h ..
    rw [List.cons_append] at hfirst
    rw [List.cons_append, occursIn, hfirst, ih, occursIn, Bool.or_assoc]

/-- A piece of a text holds what is looked for or not, whatever stands around it. -/
def Brings (part xs : List Char) (found : Bool) : Prop :=
  ∀ before behind, occursIn part (before ++ (xs ++ behind)) =
    (occursIn part before || (found || occursIn part behind))

theorem Brings.append {found found' : Bool} (hne : part ≠ []) (h : Brings part xs found)
    (h' : Brings part ys found') : Brings part (xs ++ ys) (found || found') := by
  intro before behind
  have hbehind := h' [] behind
  rw [List.nil_append, occursIn_nil hne, Bool.false_or] at hbehind
  rw [List.append_assoc, h, hbehind, Bool.or_assoc]

/-- A piece between two characters that what is looked for does not hold. -/
theorem brings_between {sep' : Char} (hne : part ≠ []) (h : sep ∉ part) (h' : sep' ∉ part) (xs : List Char) :
    Brings part (sep :: (xs ++ [sep'])) (occursIn part xs) := by
  intro before behind
  have hparts : sep :: (xs ++ [sep']) ++ behind = sep :: (xs ++ sep' :: behind) := by simp
  rw [hparts, occursIn_cut hne h, occursIn_cut hne h']

theorem brings_singleton (hne : part ≠ []) (h : sep ∉ part) : Brings part [sep] false := by
  intro before behind
  rw [List.singleton_append, occursIn_cut hne h, Bool.false_or]

end

/-! ## Quotations -/

/-- The characters that stand around quotations and within escapes. -/
def borders : List Char := " ()\x7b\x7d,.'\"\\".toList

section

variable {part : List Char} (hpart : part ∈ sought)

include hpart

theorem ne_nil_of_sought : part ≠ [] := by
  rintro rfl
  revert hpart
  decide

theorem notMem_of_sought {c : Char} (hc : c ∈ borders) : c ∉ part := by
  have hall : ∀ part ∈ sought, borders.all (!part.contains ·) = true := by decide
  simpa using List.all_eq_true.mp (hall part hpart) c hc

/-- What is looked for is quoted as it is. -/
theorem quotedChar_of_sought {c : Char} (hc : c ∈ part) : quotedChar c = c.toString := by
  have hall : ∀ part ∈ sought, part.all (fun c => quotedChar c == c.toString) = true := by decide
  exact beq_iff_eq.mp (List.all_eq_true.mp (hall part hpart) c hc)

/-- What is looked for begins with none of the characters that stand for another in an escape. -/
theorem exists_cons_of_sought : ∃ c rest, part = c :: rest ∧ (c = 'T' ∨ c = 'E' ∨ c = 'm') := by
  have hall : ∀ part ∈ sought, part.head?.any (fun c => c = 'T' ∨ c = 'E' ∨ c = 'm') = true := by decide
  obtain ⟨c, hc, hfirst⟩ := (Option.any_eq_true ..).mp (hall part hpart)
  obtain ⟨rest, rfl⟩ := List.head?_eq_some_iff.mp hc
  exact ⟨c, rest, rfl, of_decide_eq_true hfirst⟩

end

theorem exists_digitChar_of_mem_toDigits {n : Nat} {c : Char} (h : c ∈ Nat.toDigits 16 n) :
    ∃ d : Nat, c = d.digitChar := by
  induction n using Nat.strongRecOn with
  | _ n ih =>
    rw [Nat.toDigits_eq_if (by omega)] at h
    split at h
    · exact ⟨n, List.mem_singleton.mp h⟩
    · rcases List.mem_append.mp h with hfront | hlast
      · exact ih (n / 16) (by omega) hfront
      · exact ⟨n % 16, List.mem_singleton.mp hlast⟩

/-- A character is quoted as it is, or by a backslash and something that begins nothing that is looked for. -/
theorem quotedChar_cases (c : Char) :
    quotedChar c = c.toString ∨ ∃ escape, (quotedChar c).toList = '\\' :: escape ∧
      'T' ∉ escape ∧ 'E' ∉ escape ∧ 'm' ∉ escape := by
  have hhex : ∀ n, 'T' ∉ (hexDigits n).toList ∧ 'E' ∉ (hexDigits n).toList ∧ 'm' ∉ (hexDigits n).toList := by
    intro n
    refine ⟨?_, ?_, ?_⟩
    all_goals
      intro hmem
      rw [hexDigits, String.toList_ofList] at hmem
      obtain ⟨d, hd⟩ := exists_digitChar_of_mem_toDigits hmem
      exact Nat.digitChar_ne _ (by decide) hd.symm
  unfold quotedChar
  repeat' split
  all_goals first
    | exact .inl rfl
    | exact .inr ⟨_, rfl, by decide, by decide, by decide⟩
    | skip
  obtain ⟨hT, hE, hm⟩ := hhex c.toNat
  right
  refine ⟨'u' :: '{' :: ((hexDigits c.toNat).toList ++ ['}']), ?_, ?_, ?_, ?_⟩
  · simp
  · simp [hT]
  · simp [hE]
  · simp [hm]

/-- The characters of a quotation. -/
def quotedBody (cs : List Char) : List Char := cs.flatMap fun c => (quotedChar c).toList

theorem toList_quoted (s : String) : (quoted s).toList = '"' :: (quotedBody s.toList ++ ['"']) := by
  have hjoin : ∀ ss : List String, (String.join ss).toList = ss.flatMap String.toList := by
    intro ss
    simp
  simp [quoted, quotedBody, hjoin, List.flatMap_map]

section

variable {part : List Char}

/-- A quotation begins with characters that are quoted as they are if and only if the text does. -/
theorem isPrefixOf_quotedBody (hplain : ∀ c ∈ part, quotedChar c = c.toString) (hmark : '\\' ∉ part)
    (cs : List Char) : part.isPrefixOf (quotedBody cs) = part.isPrefixOf cs := by
  induction part generalizing cs with
  | nil => simp
  | cons p part ih =>
    rw [List.mem_cons, not_or] at hmark
    cases cs with
    | nil => rfl
    | cons c cs =>
      have hcons : quotedBody (c :: cs) = (quotedChar c).toList ++ quotedBody cs := rfl
      rcases quotedChar_cases c with hc | ⟨escape, hescape, -⟩
      · have hrest := ih (fun c hc => hplain c (List.mem_cons_of_mem p hc)) hmark.2 cs
        rw [hcons, hc]
        simp [List.isPrefixOf, hrest]
      · have hp : p ≠ c := by
          rintro rfl
          have hself : (quotedChar p).toList = [p] := by simp [hplain p List.mem_cons_self]
          rw [hescape] at hself
          exact hmark.1 (List.cons.inj hself).1
        have hother : (p == c) = false := beq_false_of_ne hp
        have hslash : (p == '\\') = false := beq_false_of_ne (Ne.symm hmark.1)
        rw [hcons, hescape, List.cons_append, List.isPrefixOf, List.isPrefixOf, hother, hslash, Bool.false_and,
          Bool.false_and]

/-- **What is looked for occurs in a quotation if and only if it occurs in the text.** -/
theorem occursIn_quotedBody (hpart : part ∈ sought) (cs : List Char) :
    occursIn part (quotedBody cs) = occursIn part cs := by
  have hmark : '\\' ∉ part := notMem_of_sought hpart (by decide)
  have hne := ne_nil_of_sought hpart
  induction cs with
  | nil => rfl
  | cons c cs ih =>
    have hcons : quotedBody (c :: cs) = (quotedChar c).toList ++ quotedBody cs := rfl
    have hprefix := isPrefixOf_quotedBody (fun c => quotedChar_of_sought hpart) hmark (c :: cs)
    rcases quotedChar_cases c with hc | ⟨escape, hescape, hT, hE, hm⟩
    · have hself : quotedBody (c :: cs) = c :: quotedBody cs := by simp [hcons, hc]
      rw [hself] at hprefix
      rw [hself, occursIn, hprefix, ih, occursIn]
    · -- an escape
      obtain ⟨p, rest, rfl, hp⟩ := exists_cons_of_sought hpart
      have hbegin : p ∉ escape := by rcases hp with rfl | rfl | rfl <;> assumption
      have hslash := isPrefixOf_cut hmark [] (escape ++ quotedBody cs)
      have hcut := occursIn_cut hne hmark [] (escape ++ quotedBody cs)
      rw [List.nil_append] at hslash hcut
      rw [hcons, hescape, List.cons_append, hslash] at hprefix
      rw [hcons, hescape, List.cons_append, hcut, occursIn_nil hne, Bool.false_or, occursIn_append hbegin, ih,
        occursIn, ← hprefix]
      rfl

theorem brings_quoted (hpart : part ∈ sought) (s : String) :
    Brings part (quoted s).toList (occursIn part s.toList) := by
  have hquote : '"' ∉ part := notMem_of_sought hpart (by decide)
  rw [toList_quoted, ← occursIn_quotedBody hpart]
  exact brings_between (ne_nil_of_sought hpart) hquote hquote (quotedBody s.toList)

theorem brings_quotedLetter (hpart : part ∈ sought) (c : Char) :
    Brings part (quotedLetter c).toList (occursIn part c.toString.toList) := by
  have hne := ne_nil_of_sought hpart
  have hsingle : '\'' ∉ part := notMem_of_sought hpart (by decide)
  obtain ⟨body, hbody, hoccurs⟩ : ∃ body, (quotedLetter c).toList = '\'' :: (body ++ ['\'']) ∧
      occursIn part body = occursIn part [c] := by
    by_cases hc : c = '\''
    · have hcut := occursIn_cut hne (notMem_of_sought hpart (by decide : '\\' ∈ borders)) [] ['\'']
      rw [occursIn_nil hne, Bool.false_or] at hcut
      subst hc
      exact ⟨['\\', '\''], rfl, hcut⟩
    · by_cases hdouble : c = '"'
      · subst hdouble
        exact ⟨['"'], rfl, rfl⟩
      · refine ⟨quotedBody [c], ?_, occursIn_quotedBody hpart [c]⟩
        simp [quotedLetter, quotedBody, hc, hdouble]
  have hself : c.toString.toList = [c] := by simp
  rw [hbody, hself, ← hoccurs]
  exact brings_between hne hsingle hsingle body

/-- A text between quotations. -/
def IsGap (text : List Char) : Prop :=
  text.head?.any borders.contains = true ∧ text.getLast?.any borders.contains = true ∧
    ∀ part ∈ sought, occursIn part text = false

instance (text : List Char) : Decidable (IsGap text) := inferInstanceAs (Decidable (_ ∧ _))

theorem brings_gap (hpart : part ∈ sought) (text : List Char) (h : IsGap text) : Brings part text false := by
  obtain ⟨hhead, hlast, hnone⟩ := h
  obtain ⟨c, hc, hborder⟩ := (Option.any_eq_true ..).mp hhead
  obtain ⟨c', hc', hborder'⟩ := (Option.any_eq_true ..).mp hlast
  rw [List.contains_iff_mem] at hborder hborder'
  have hne := ne_nil_of_sought hpart
  have hsep := notMem_of_sought hpart hborder
  have hsep' := notMem_of_sought hpart hborder'
  obtain ⟨cs, rfl⟩ := List.head?_eq_some_iff.mp hc
  rcases List.eq_nil_or_concat cs with rfl | ⟨mid, last, rfl⟩
  · exact brings_singleton hne hsep
  · obtain rfl : last = c' := by simpa [List.getLast?_cons] using hc'
    have hmid := hnone part hpart
    have hcut := occursIn_cut hne hsep [] (mid ++ [last])
    rw [List.concat_eq_append] at hmid ⊢
    rw [List.nil_append, hmid, occursIn_cut hne hsep'] at hcut
    have hnomid : occursIn part mid = false := by
      cases hfound : occursIn part mid with
      | false => rfl
      | true => simp [hfound] at hcut
    rw [← hnomid]
    exact brings_between hne hsep hsep' mid

theorem brings_enclosed (hpart : part ∈ sought) (before behind : List Char) (h : IsGap before)
    (h' : IsGap behind) (s : String) :
    Brings part (before ++ ((quoted s).toList ++ behind)) (occursIn part s.toList) := by
  have hne := ne_nil_of_sought hpart
  have hquoted := (brings_quoted hpart s).append hne (brings_gap hpart behind h')
  have hall := (brings_gap hpart before h).append hne hquoted
  rwa [Bool.false_or, Bool.or_false] at hall

theorem occursIn_digits (hpart : part ∈ sought) (n : Nat) : occursIn part (toString n).toList = false := by
  have hne := ne_nil_of_sought hpart
  obtain ⟨c, rest, rfl, hc⟩ := exists_cons_of_sought hpart
  have hdigit : c.isDigit = false := by rcases hc with rfl | rfl | rfl <;> rfl
  have hdigits : occursIn (c :: rest) ((toString n).toList ++ []) = occursIn (c :: rest) [] :=
    occursIn_append (notMem_toDigits n hdigit) []
  rwa [List.append_nil, occursIn_nil hne] at hdigits

/-- A number between other data. -/
theorem brings_number (hpart : part ∈ sought) (sep : Char) (before : List Char) (sep' : Char)
    {behind : List Char} {found : Bool} (hsep : sep ∈ borders)
    (h : ∀ part ∈ sought, occursIn part before = false) (hsep' : sep' ∈ borders) (hbehind : Brings part behind found) (n : Nat) :
    Brings part (sep :: (before ++ sep' :: ((toString n).toList ++ behind))) found := by
  intro front rest
  have hne := ne_nil_of_sought hpart
  have hcut := hbehind (toString n).toList rest
  rw [occursIn_digits hpart, Bool.false_or] at hcut
  have hparts : sep :: (before ++ sep' :: ((toString n).toList ++ behind)) ++ rest =
      sep :: (before ++ sep' :: ((toString n).toList ++ (behind ++ rest))) := by simp
  rw [hparts, occursIn_cut hne (notMem_of_sought hpart hsep), occursIn_cut hne (notMem_of_sought hpart hsep'),
    h part hpart, hcut, Bool.false_or]

theorem brings_span (hpart : part ∈ sought) (sep : Char) (before behind : List Char) (hsep : sep ∈ borders)
    (h : ∀ part ∈ sought, occursIn part before = false) (hbehind : IsGap behind) (start stop : Nat) :
    Brings part (sep :: (before ++ ' ' :: ((toString start).toList ++
      '.' :: ([] ++ '.' :: ((toString stop).toList ++ behind))))) false := by
  have hnone : ∀ part ∈ sought, occursIn part [] = false := fun part hpart =>
    occursIn_nil (ne_nil_of_sought hpart)
  have hdot : '.' ∈ borders := by decide
  have hstop := brings_number hpart '.' [] '.' hdot hnone hdot (brings_gap hpart behind hbehind) stop
  exact brings_number hpart sep before ' ' hsep h (by decide) hstop start

/-- **Behind its code a diagnostic holds what the fault quotes**, and nothing else that is looked for. -/
theorem exists_diagnostic (hpart : part ∈ sought) (f : Fault) :
    ∃ rest, (f.diagnostic ++ ") \x7d").toList = f.code.toList ++ rest ∧ Brings part rest (f.quotes part) := by
  have hne := ne_nil_of_sought hpart
  cases f with
  | expected first second | modifierOrder first second =>
    have hfirst := (brings_gap hpart "(".toList (by decide)).append hne (brings_quoted hpart first)
    have hsecond := brings_enclosed hpart ", ".toList ")) \x7d".toList (by decide)
      (by decide) second
    refine ⟨_, ?_, by simpa [Fault.quotes, Fault.texts] using hfirst.append hne hsecond⟩
    simp [Fault.diagnostic]
  | unexpected found wanted =>
    have hfound := (brings_gap hpart " \x7b got: ".toList (by decide)).append hne
      (brings_quoted hpart found)
    have hwanted := brings_enclosed hpart ", expected: ".toList " \x7d) \x7d".toList
      (by decide) (by decide) wanted
    refine ⟨_, ?_, by simpa [Fault.quotes, Fault.texts] using hfound.append hne hwanted⟩
    simp [Fault.diagnostic]
  | statementEndExpected start stop =>
    have hspan := brings_span hpart ' ' "\x7b expr:".toList " \x7d) \x7d".toList (by decide) (by decide)
      (by decide) start stop
    exact ⟨_, by simp [Fault.diagnostic], hspan⟩
  | strangeCharacter c =>
    have hcharacter := (brings_quotedLetter hpart c).append hne
      (brings_gap hpart " \x7d) \x7d".toList (by decide))
    have hall := (brings_gap hpart " \x7b c: ".toList (by decide)).append hne hcharacter
    refine ⟨_, ?_, by simpa [Fault.quotes, Fault.texts] using hall⟩
    simp [Fault.diagnostic]
  | escapeInReservedWord word =>
    have hword := brings_enclosed hpart " \x7b word: ".toList " \x7d) \x7d".toList
      (by decide) (by decide) word
    refine ⟨_, ?_, by simpa [Fault.quotes, Fault.texts] using hword⟩
    simp [Fault.diagnostic]
  | unaryBeforePower operand start stop =>
    have hoperand := (brings_gap hpart " \x7b left: ".toList (by decide)).append hne
      (brings_quoted hpart operand)
    have hspan := brings_span hpart ',' " left_span:".toList " \x7d) \x7d".toList (by decide) (by decide)
      (by decide) start stop
    refine ⟨_, ?_, by simpa [Fault.quotes, Fault.texts] using hoperand.append hne hspan⟩
    simp [Fault.diagnostic]
  | reservedInStrictCode name | duplicateLabel name | importBindingIsText name | nonNullOn name
  | modifierNotHere name | modifierTwice name | duplicateExport name =>
    have hname := brings_enclosed hpart "(".toList ")) \x7d".toList (by decide) (by decide)
      name
    refine ⟨_, ?_, by simpa [Fault.quotes, Fault.texts] using hname⟩
    simp [Fault.diagnostic]
  | digitExpected radix =>
    have hradix := brings_number hpart ' ' "\x7b radix:".toList ' ' (by decide) (by decide) (by decide)
      (brings_gap hpart " \x7d) \x7d".toList (by decide)) radix
    exact ⟨_, by simp [Fault.diagnostic], hradix⟩
  | _ => exact ⟨_, String.toList_append .., brings_gap hpart _ (by decide)⟩

/-- **What is looked for is found** in the code of the fault, or in a text that the fault quotes. -/
theorem occursIn_diagnostic (hpart : part ∈ sought) (pos : Nat) (f : Fault) :
    occursIn part (Flaw.diagnostic ⟨pos, f⟩).toList = (occursIn part f.code.toList || f.quotes part) := by
  have hne := ne_nil_of_sought hpart
  obtain ⟨rest, hdiagnostic, hrest⟩ := exists_diagnostic hpart f
  have hfront := brings_number hpart ' ' "\x7b error: ".toList '(' (by decide) (by decide) (by decide)
    (brings_gap hpart ", ".toList (by decide)) pos
  have hparts : (Flaw.diagnostic ⟨pos, f⟩).toList = "Error".toList ++
      (' ' :: ("\x7b error: ".toList ++ '(' :: ((toString pos).toList ++ ", ".toList)) ++
        (f.code.toList ++ (rest ++ []))) := by
    rw [List.append_nil, ← hdiagnostic, toList_diagnostic]
    generalize f.diagnostic = cause
    generalize toString pos = place
    simp
  have herror : ∀ part ∈ sought, occursIn part "Error".toList = false := by decide
  rw [hparts, hfront, hrest, herror part hpart, occursIn_nil hne, Bool.false_or, Bool.false_or, Bool.or_false]

end

/-! ## Descriptions -/

theorem exists_of_occursIn {part cs : List Char} (h : occursIn part cs = true) :
    ∃ before rest, cs = before ++ (part ++ rest) ∧ after? part cs = some rest := by
  induction cs with
  | nil =>
    obtain rfl : part = [] := by simpa [occursIn] using h
    exact ⟨[], [], rfl, rfl⟩
  | cons c cs ih =>
    rw [occursIn, Bool.or_eq_true] at h
    by_cases hfirst : part.isPrefixOf (c :: cs) = true
    · obtain ⟨rest, hrest⟩ := List.isPrefixOf_iff_prefix.mp hfirst
      refine ⟨[], rest, hrest.symm, ?_⟩
      rw [after?, if_pos hfirst, ← hrest, List.drop_left]
    · obtain ⟨before, rest, rfl, hafter⟩ := ih (h.resolve_left hfirst)
      exact ⟨c :: before, rest, rfl, by rw [after?, if_neg hfirst, hafter]⟩

theorem after?_eq_none {part cs : List Char} (h : occursIn part cs = false) : after? part cs = none := by
  induction cs with
  | nil => simpa [after?, occursIn] using h
  | cons c cs ih =>
    rw [occursIn, Bool.or_eq_false_iff] at h
    rw [after?, if_neg (by simp [h.1]), ih h.2]

/-- A record ends with a brace, so a description that begins is ended. -/
theorem exists_ownDescription {cs : List Char} (h : occursIn messageWord cs = true)
    (hlast : cs.getLast? = some '\x7d') : ∃ own, ownDescription? cs = some own := by
  obtain ⟨before, rest, hcs, hafter⟩ := exists_of_occursIn h
  rw [hcs] at hlast
  have hrest : rest ≠ [] := by
    rintro rfl
    have hcolon : messageWord.getLast? = some ':' := by decide
    simp only [List.append_nil, List.getLast?_append, hcolon, Option.some_or, Option.some.injEq] at hlast
    exact absurd hlast (by decide)
  have hbrace : '\x7d' ∈ rest := by
    rw [← List.append_assoc, List.getLast?_append_of_ne_nil _ hrest] at hlast
    exact List.mem_of_getLast? hlast
  have hany : (rest.any fun c => c == ',' || c == '\x7d') = true :=
    List.any_eq_true.mpr ⟨_, hbrace, rfl⟩
  have hword : after? "message:".toList cs = some rest := hafter
  simp only [ownDescription?, hword, Option.bind_eq_bind, Option.bind_some, hany, if_true]
  exact ⟨_, rfl⟩

theorem notMem_ofList {cs : List Char} {c : Char} (h : c ∉ cs) : c ∉ (String.ofList cs).toList := by
  rwa [String.toList_ofList]

theorem colon_notMem_code (f : Fault) : ':' ∉ f.code.toList := by
  cases f <;> exact notMem_ofList (by decide)

/-- What occurs in a text consists of characters of the text. -/
theorem mem_of_occursIn {part cs : List Char} (h : occursIn part cs = true) {c : Char} (hc : c ∈ part) :
    c ∈ cs := by
  obtain ⟨before, rest, rfl, -⟩ := exists_of_occursIn h
  exact List.mem_append_right before (List.mem_append_left rest hc)

/-- No code holds the word before a description. -/
theorem occursIn_messageWord_code (f : Fault) : occursIn messageWord f.code.toList = false := by
  cases h : occursIn messageWord f.code.toList with
  | false => rfl
  | true => exact absurd (mem_of_occursIn h (by decide)) (colon_notMem_code f)

/-- The description of a fault: that of the first known code in its code or in a text that it quotes, or what a
text that it quotes describes, or none. -/
def Fault.told (f : Fault) : String :=
  match knownCodes.find? fun (known, _) => occursIn known.toList f.code.toList || f.quotes known.toList with
  | some (_, text) => text
  | none =>
    if f.quotes messageWord then String.ofList ((ownDescription? (Flaw.diagnostic ⟨0, f⟩).toList).getD [])
    else "Syntax error"

theorem getLast?_diagnostic (pos : Nat) (f : Fault) : (Flaw.diagnostic ⟨pos, f⟩).toList.getLast? = some '\x7d' := by
  rw [toList_diagnostic]
  generalize f.diagnostic = cause
  generalize toString pos = place
  simp [List.getLast?_cons, List.getLast?_append]

/-- What a text that a fault quotes describes is read from the record of the fault. -/
theorem exists_ownDescription_of_quotes {f : Fault} (h : f.quotes messageWord = true) :
    ∃ own, ownDescription? (Flaw.diagnostic ⟨0, f⟩).toList = some own := by
  have hword := occursIn_diagnostic (List.mem_cons_self : messageWord ∈ sought) 0 f
  rw [h, Bool.or_true] at hword
  exact exists_ownDescription hword (getLast?_diagnostic 0 f)

/-- **What a user is told of a flaw** is found in the code of its fault, or in a text that the fault quotes. -/
theorem description_eq_told (flaw : Flaw) : description flaw.diagnostic = flaw.fault.told := by
  obtain ⟨pos, f⟩ := flaw
  rw [description_diagnostic pos 0]
  have hknown : (knownCodes.find? fun code => occursIn code.1.toList (Flaw.diagnostic ⟨0, f⟩).toList) =
      knownCodes.find? fun code => occursIn code.1.toList f.code.toList || f.quotes code.1.toList := by
    refine List.find?_congr fun code hcode => ?_
    exact occursIn_diagnostic (List.mem_cons_of_mem _ (List.mem_map_of_mem hcode)) 0 f
  have hword := occursIn_diagnostic (List.mem_cons_self : messageWord ∈ sought) 0 f
  rw [occursIn_messageWord_code, Bool.false_or] at hword
  simp only [description, Fault.told, hknown]
  cases knownCodes.find? fun code => occursIn code.1.toList f.code.toList || f.quotes code.1.toList with
  | some code => rfl
  | none =>
    cases hquotes : f.quotes messageWord with
    | false =>
      rw [hquotes] at hword
      have hown : ownDescription? (Flaw.diagnostic ⟨0, f⟩).toList = none := by
        have hafter : after? "message:".toList (Flaw.diagnostic ⟨0, f⟩).toList = none := after?_eq_none hword
        simp only [ownDescription?, hafter, Option.bind_eq_bind, Option.bind_none]
      simp [hown]
    | true =>
      obtain ⟨own, hown⟩ := exists_ownDescription_of_quotes hquotes
      simp [hown]

/-- Nothing that is looked for occurs in what a fault quotes. -/
def Fault.IsQuiet (f : Fault) : Prop := ∀ part ∈ sought, f.quotes part = false

instance (f : Fault) : Decidable f.IsQuiet := inferInstanceAs (Decidable (∀ part ∈ sought, _))

theorem Fault.IsQuiet.told_eq {f : Fault} (h : f.IsQuiet) : f.told = describeCode f.code := by
  have hknown : (knownCodes.find? fun code => occursIn code.1.toList f.code.toList || f.quotes code.1.toList) =
      knownCodes.find? fun code => occursIn code.1.toList f.code.toList := by
    refine List.find?_congr fun code hcode => ?_
    rw [h code.1.toList (List.mem_cons_of_mem _ (List.mem_map_of_mem hcode)), Bool.or_false]
  have hword : f.quotes messageWord = false := h messageWord List.mem_cons_self
  simp only [Fault.told, describeCode, hknown, hword]
  rfl

/-- What stands above the description of a complaint: the line and the place. -/
def Complaint.heading (cs : List Char) (pos : Nat) : String :=
  "Parse error at line " ++ toString (lineAt cs pos) ++ ":\n  " ++ String.ofList (lineTextAt cs pos) ++ "\n  " ++
    (String.ofList (List.replicate (columnAt cs pos) ' ') ++ "^") ++ "\n"

/-- **What a source with a flaw is told**: where the flaw is, and a description. It is the description of the first
known code that occurs in the code of the fault or in a name or text that the fault quotes. If there is none, a
quoted text that holds the word `message:` is read as the description. So the names of two sources with the same
fault make a difference only if one of them holds a known code or that word. -/
theorem compile_describes {source source' : String} {cs cs' : List Char} {flaw flaw' : Flaw}
    (hcs : withoutEncodingMark source.toList = cs) (hcs' : withoutEncodingMark source'.toList = cs')
    (h : Document.parse true (String.ofList cs) = .error flaw)
    (h' : Document.parse true (String.ofList cs') = .error flaw') :
    compile source =
      .error (.parse ⟨lineAt cs flaw.pos, Complaint.heading cs flaw.pos ++ flaw.fault.told⟩) ∧
    compile source' =
      .error (.parse ⟨lineAt cs' flaw'.pos, Complaint.heading cs' flaw'.pos ++ flaw'.fault.told⟩) ∧
    (flaw.fault.IsQuiet → flaw.fault.told = describeCode flaw.fault.code) ∧
    (flaw.fault.code = flaw'.fault.code → flaw.fault.told ≠ flaw'.fault.told →
      ¬ flaw.fault.IsQuiet ∨ ¬ flaw'.fault.IsQuiet) := by
  have hsaid : ∀ (cs : List Char) (flaw : Flaw), Complaint.ofFlaw cs flaw =
      ⟨lineAt cs flaw.pos, Complaint.heading cs flaw.pos ++ flaw.fault.told⟩ := by
    intro cs flaw
    rw [Complaint.ofFlaw, Complaint.about, description_eq_told]
    rfl
  refine ⟨?_, ?_, Fault.IsQuiet.told_eq, ?_⟩
  · rw [compile_of_error hcs h, hsaid]
  · rw [compile_of_error hcs' h', hsaid]
  · intro hcode htold
    by_contra hquiet
    rw [not_or, not_not, not_not] at hquiet
    refine htold ?_
    rw [hquiet.1.told_eq, hquiet.2.told_eq, hcode]

/-- The fault of a source, if it has one. -/
theorem parse_eq_error {source : String} {flaw : Flaw}
    (h : (Document.parse true source).map (fun _ => ()) = .error flaw) :
    Document.parse true source = .error flaw := by
  cases hparse : Document.parse true source with
  | error flaw' =>
    rw [hparse] at h
    exact congrArg Except.error (Except.error.inj h)
  | ok document =>
    rw [hparse] at h
    cases h

theorem parse_label : Document.parse true "a: a: x" = .error ⟨3, .duplicateLabel "a"⟩ :=
  parse_eq_error (by decide +kernel)

theorem parse_label_code : Document.parse true "TS1005: TS1005: x" = .error ⟨8, .duplicateLabel "TS1005"⟩ :=
  parse_eq_error (by decide +kernel)

/-- A label that is used twice is not described, but one that is called like a code is told what that code means. -/
theorem compile_describes_labels :
    let flaw : Flaw := ⟨3, .duplicateLabel "a"⟩
    let flaw' : Flaw := ⟨8, .duplicateLabel "TS1005"⟩
    Document.parse true (String.ofList "a: a: x".toList) = .error flaw ∧
    Document.parse true (String.ofList "TS1005: TS1005: x".toList) = .error flaw' ∧
    flaw.fault.IsQuiet ∧ flaw.fault.code = flaw'.fault.code ∧ flaw.fault.told = "Syntax error" ∧
    flaw'.fault.told = "Expected token (likely missing semicolon, comma, or bracket)" ∧
    compile "a: a: x" = .error (.parse ⟨1, Complaint.heading "a: a: x".toList 3 ++ flaw.fault.told⟩) ∧
    ¬ flaw'.fault.IsQuiet := by
  intro flaw flaw'
  have h : Document.parse true (String.ofList "a: a: x".toList) = .error flaw := by
    rw [String.ofList_toList, parse_label]
  have h' : Document.parse true (String.ofList "TS1005: TS1005: x".toList) = .error flaw' := by
    rw [String.ofList_toList, parse_label_code]
  have hquiet : flaw.fault.IsQuiet := by decide
  have htold : flaw.fault.told = "Syntax error" := by decide +kernel
  have htold' : flaw'.fault.told = "Expected token (likely missing semicolon, comma, or bracket)" := by
    decide +kernel
  obtain ⟨hcompile, -, -, hloud⟩ := @compile_describes "a: a: x" "TS1005: TS1005: x" _ _ _ _ rfl rfl h h'
  have hne : flaw.fault.told ≠ flaw'.fault.told := by
    rw [htold, htold']
    decide
  exact ⟨h, h', hquiet, rfl, htold, htold', hcompile, (hloud rfl hne).resolve_left (not_not.mpr hquiet)⟩

/-- **What a source is told depends on its names.** Two sources have the same fault, a label that is used twice, and
are told different things. -/
theorem label_selects_description :
    ¬ ∀ (source source' : String) (flaw flaw' : Flaw), Document.parse true source = .error flaw →
      Document.parse true source' = .error flaw' → flaw.fault.code = flaw'.fault.code →
      description flaw.diagnostic = description flaw'.diagnostic := by
  intro hall
  have hsame := hall _ _ _ _ parse_label parse_label_code rfl
  revert hsame
  decide +kernel

end Scratchpad.TypeScript
