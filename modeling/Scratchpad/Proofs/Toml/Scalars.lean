import Mathlib.Data.List.TakeWhile
import Scratchpad.Proofs.Number.Digits
import Scratchpad.Proofs.Toml.Strings
import Scratchpad.Toml.Scalar

/-!
# Names and values read back

Names and values are written as single tokens. A name that needs no quotes has none, and every other name and every
text is read back from its quotes. Truth values and words are bare words that are read as what they stand for.

## Main definitions

* `Reads`: a text that is a single token and is read as a datum, wherever it stands.

## Main statements

* `reads_writtenName`: names are read back.
* `reads_writtenText`, `reads_writtenBoolean`, `reads_toString`: texts, truth values and words are read back.
-/

namespace Scratchpad.Toml

variable {c : Char} {cs : List Char}

/-! ## Bare words -/

theorem ne_of_isBareName (h : isBareName c = true) (d : Char) (hd : isBareName d = false) : c ≠ d := by
  rintro rfl
  exact Bool.false_ne_true (hd.symm.trans h)

theorem markKind?_of_isBareName (h : isBareName c = true) : markKind? c = none := by
  have hne := ne_of_isBareName h
  unfold markKind?
  split <;> first | rfl | exact absurd rfl (hne _ rfl)

theorem isBare_of_isBareName (h : isBareName c = true) : isBare c = true := by
  have hne := ne_of_isBareName h
  simp [isBare, isBlank, markKind?_of_isBareName h, hne ' ' rfl, hne '\t' rfl, hne '#' rfl, hne '\r' rfl]

/-- A word without quotes is cut off as one token. -/
theorem isLexeme_bare (hne : cs ≠ []) (h : ∀ c ∈ cs, isBareName c = true) : IsLexeme .bare cs := by
  obtain ⟨c, cs, rfl⟩ := List.exists_cons_of_ne_nil hne
  refine ⟨c, cs, rfl, fun d rest hd => ?_⟩
  rw [List.forall_mem_cons] at h
  have hc := ne_of_isBareName h.1
  have hcs : ∀ c ∈ cs, isBare c = true := fun c hmem => isBare_of_isBareName (h.2 c hmem)
  have hwhile : cutWhile isBare (cs ++ d :: rest) = (cs, d :: rest) := by
    rw [cutWhile, List.takeWhile_append_of_pos hcs, List.dropWhile_append_of_pos hcs,
      List.takeWhile_cons_of_neg (by simp [hd]), List.dropWhile_cons_of_neg (by simp [hd]), List.append_nil]
  simp [cut, markKind?_of_isBareName h.1, isBlank, hc ' ' rfl, hc '\t' rfl, hc '#' rfl, hc '\r' rfl, hc '\'' rfl,
    hc '"' rfl, hwhile, onto]

/-! ## Names -/

/-- The kinds of tokens that are names and values: bare words and texts in quotes. -/
def Kind.IsScalar (kind : Kind) : Prop := kind = .bare ∨ ∃ quoting, kind = .string quoting

theorem Kind.IsScalar.ne_blank {kind : Kind} (h : kind.IsScalar) : kind ≠ .blank := by
  obtain rfl | ⟨quoting, rfl⟩ := h <;> simp

/-- A text that is a single token is read as a datum, wherever it stands. -/
def Reads {α : Type} (read : Token → Except Misfit α) (text : String) (a : α) : Prop :=
  ∃ kind, IsLexeme kind text.toList ∧ kind.IsScalar ∧
    ∀ t : Token, t.kind = kind → t.text = text.toList → read t = .ok a

/-- A text is read as one datum only. -/
theorem Reads.unique {α : Type} {read : Token → Except Misfit α} {text : String} {a b : α} (ha : Reads read text a)
    (hb : Reads read text b) : a = b := by
  obtain ⟨kind, ⟨c, cs, htext, hcut⟩, -, hread⟩ := ha
  obtain ⟨other, ⟨d, ds, hsame, hcutOther⟩, -, hreadOther⟩ := hb
  obtain ⟨rfl, rfl⟩ := List.cons.inj (htext.symm.trans hsame)
  obtain rfl : kind = other := congrArg Prod.fst ((hcut '\n' [] rfl).symm.trans (hcutOther '\n' [] rfl))
  exact Except.ok.inj ((hread ⟨kind, 0, text.toList⟩ rfl rfl).symm.trans (hreadOther _ rfl rfl))

/-- **A name is read back.** -/
theorem reads_writtenName (s : String) : Reads nameOf (writtenName s) s := by
  rw [writtenName]
  split
  · rename_i hbare
    simp only [Bool.and_eq_true, Bool.not_eq_true', List.isEmpty_eq_false_iff, List.all_eq_true] at hbare
    refine ⟨.bare, isLexeme_bare hbare.1 hbare.2, .inl rfl, fun t hkind htext => ?_⟩
    have hempty := List.isEmpty_eq_false_iff.mpr hbare.1
    simp only [nameOf, hkind, htext, hempty, Bool.false_eq_true, if_false, firstOutside?_eq_none hbare.2,
      String.ofList_toList]
  · obtain ⟨hline, hhold⟩ := canHold_nameQuoting s.toList
    refine ⟨.string (Content.ofText s.toList).nameQuoting, ?_, .inr ⟨_, rfl⟩, fun t hkind htext => ?_⟩
    · rw [String.toList_ofList]
      exact isLexeme_writtenAs hhold
    · have hname : nameOf t = textOf (Content.ofText s.toList).nameQuoting t := by
        rw [nameOf, hkind]
        obtain h | h := hline <;> rw [h]
      rw [hname, textOf_writtenAs hhold (by rw [htext, String.toList_ofList]), String.ofList_toList]

/-! ## Values -/

/-- **A text is read back.** -/
theorem reads_writtenText (s : String) : Reads scalarOf (writtenText s) (.text s) := by
  have hhold := canHold_quoting s.toList
  refine ⟨.string (Content.ofText s.toList).quoting, ?_, .inr ⟨_, rfl⟩, fun t hkind htext => ?_⟩
  · rw [writtenText, String.toList_ofList]
    exact isLexeme_writtenAs hhold
  · rw [scalarOf, hkind]
    change Value.text <$> textOf (Content.ofText s.toList).quoting t = _
    rw [textOf_writtenAs hhold (by rw [htext, writtenText, String.toList_ofList]), String.ofList_toList]
    rfl

/-- A truth value is read back. -/
theorem reads_writtenBoolean (b : Bool) : Reads scalarOf (writtenBoolean b) (.boolean b) := by
  have hbare : (writtenBoolean b).toList.all isBareName = true := by cases b <;> decide
  refine ⟨.bare, isLexeme_bare ?_ (List.all_eq_true.mp hbare), .inl rfl, fun t hkind htext => ?_⟩
  · cases b <;> decide
  · obtain ⟨kind, start, text⟩ := t
    cases b <;> cases hkind <;> cases htext <;> rfl

theorem stray?_eq_none {isDigit : Char → Bool} (h : ∀ c ∈ cs, Bare.isSeparator c = false) (before : Option Char)
    (place : Nat) : Bare.stray? isDigit before place cs = none := by
  induction cs generalizing before place with
  | nil => rfl
  | cons c cs ih =>
    rw [List.forall_mem_cons] at h
    simp only [Bare.stray?, h.1, Bool.false_and, Bool.false_eq_true, if_false, ih h.2]

/-- Digits are free of underscores. -/
theorem checkSeparators_eq_ok (b : Bare) (h : ∀ c ∈ b.part, c.isDigit = true) :
    b.checkSeparators Char.isDigit = .ok () := by
  have hseparator : ∀ c ∈ b.part, Bare.isSeparator c = false := fun c hc =>
    beq_false_of_ne (Number.ne_of_isDigit (h c hc) rfl)
  have hany {end? : Option Char} (hend : ∀ c, end? = some c → c ∈ b.part) : end?.any Bare.isSeparator = false := by
    cases end? with
    | none => rfl
    | some c => exact hseparator c (hend c rfl)
  have hhead := hany fun c hc => List.mem_of_head? hc
  have hlast := hany fun c hc => List.mem_of_getLast? hc
  simp only [Bare.checkSeparators, hhead, hlast, Bool.and_false, Bool.false_eq_true, if_false,
    stray?_eq_none hseparator]

theorem number_decimal (h : ∀ c ∈ cs, c.isDigit = true) : Radix.decimal.number cs = Number.natOfDigits cs := by
  have hvalues : cs.filterMap hexValue? = cs.map Number.digitValue := by
    induction cs with
    | nil => rfl
    | cons c cs ih =>
      rw [List.forall_mem_cons] at h
      simp [hexValue?, h.1, ih h.2, Number.digitValue]
  rw [Radix.number, hvalues, List.foldl_map]
  rfl

/-- The digits of a word are read as that word. -/
theorem value_toDigits {t : Token} {n : Nat} (h : n < Number.twoTo 128) (ht : t.text = Nat.toDigits 10 n) :
    (Bare.ofToken t).value = .ok (.whole n) := by
  obtain ⟨d, ds, hds, hd⟩ := Number.exists_cons_toDigits n
  by_cases hzero : d = '0'
  · obtain rfl : n = 0 := Number.eq_zero_of_head?_toDigits (by rw [hds, List.head?_cons, hzero])
    obtain ⟨kind, start, text⟩ := t
    cases ht
    rfl
  have hall : ∀ c ∈ t.text, c.isDigit = true := fun c hc => Number.isDigit_of_mem_toDigits (ht ▸ hc)
  have hne {c : Char} : c.isDigit = false → d ≠ c := Number.ne_of_isDigit hd
  have hpart : (Bare.ofToken t).part = d :: ds := ht.trans hds
  have hvalue : (Bare.ofToken t).value = (Bare.ofToken t).digitsFirst := by
    rw [Bare.value, hpart]
    split <;> rename_i heq <;> cases heq
    case h_13 => rw [hd, Bool.true_or, if_pos rfl]
    case h_3 => exact absurd rfl hzero
    all_goals exact absurd hd (by decide)
  have hdrop : (Bare.ofToken t).part.dropWhile (fun c => c.isDigit || Bare.isSeparator c) = [] := by
    refine List.dropWhile_eq_nil_iff.mpr fun c hc => ?_
    rw [hall c hc, Bool.true_or]
  have hfirst : (Bare.ofToken t).part.head? ≠ some '0' := by
    rw [hpart, List.head?_cons]
    exact fun h => hzero (Option.some.inj h)
  have hpositive : (Bare.ofToken t).isNegative = false := by
    change (t.text.head? == some '-') = false
    rw [ht, hds, List.head?_cons]
    exact beq_false_of_ne fun h => hne rfl (Option.some.inj h)
  have hnumber : Radix.decimal.number t.text = n := by
    rw [number_decimal hall, ht, Number.natOfDigits_toDigits]
  rw [hvalue, Bare.digitsFirst, hdrop]
  have hcheck : (Bare.ofToken (Bare.ofToken t).token).checkSeparators Char.isDigit = .ok () :=
    checkSeparators_eq_ok _ hall
  have hfits : -(Number.twoTo 127 : Int) ≤ n ∧ (n : Int) < Number.twoTo 128 := by omega
  simp only [Bare.decimal, if_neg hfirst, hcheck, hpositive]
  change Except.ok (Bare.wholeValue (Radix.decimal.number t.text)) = _
  rw [hnumber, Bare.wholeValue, if_pos hfits]

/-- A word is read back. -/
theorem reads_toString {n : Nat} (h : n < Number.twoTo 128) : Reads scalarOf (toString n) (.whole n) := by
  have htext : (toString n).toList = Nat.toDigits 10 n := by simp
  have hbare : ∀ c ∈ (toString n).toList, isBareName c = true := by
    intro c hc
    rw [htext] at hc
    simp [isBareName, Char.isAlphanum, Number.isDigit_of_mem_toDigits hc]
  refine ⟨.bare, isLexeme_bare (by simp) hbare, .inl rfl, fun t hkind ht => ?_⟩
  rw [scalarOf, hkind]
  exact value_toDigits h (ht.trans htext)

end Scratchpad.Toml
