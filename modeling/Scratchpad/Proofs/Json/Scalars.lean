import Scratchpad.Json.Printer
import Scratchpad.Proofs.Json.Running
import Scratchpad.Proofs.Number.Digits

/-!
# Strings and numbers read back

A string that has been written is read as the same string, whatever it holds, and the decimal digits of a number
that fits into a word are read as that number, as long as something else than a number goes on behind them.

## Main definitions

* `Ends`: what stands behind a value: nothing, or what goes on with a list or an object or ends it.

## Main statements

* `Reader.takes_string`: a string is read back.
* `Reader.takes_number`, `Reader.takes_toString`: a whole number is read back.
-/

namespace Scratchpad.Json

open Number (digitValue natOfDigits)

namespace Reader

variable {c : Char} {cs ds : List Char}

/-- What stands behind a value: nothing, or what goes on with a list or an object or ends it. -/
def Ends (cs : List Char) : Prop := ∀ c, cs.head? = some c → c = ',' ∨ c = ']' ∨ c = '\x7d'

/-! ## Strings -/

theorem isHexDigit_hexDigit : ∀ n < 16, isHexDigit (hexDigit n) = true := by decide

theorem hexDigitValue_hexDigit : ∀ n < 16, hexDigitValue (hexDigit n) = n := by decide

theorem takes_forM_advance (ds cs : List Char) : Takes (ds.forM fun _ => advance) (ds ++ cs) () cs := by
  induction ds with
  | nil => exact takes_pure () cs
  | cons d ds ih => exact (takes_advance d _).bind ih

theorem takes_hexEscape (digits : List Char) (hlength : digits.length = 4) (h : digits.all isHexDigit = true)
    (cs : List Char) : Takes hexEscape (digits ++ cs) (digits.foldl (fun n d => n * 16 + hexDigitValue d) 0) cs := by
  refine (takes_rest _).bind ?_
  simp only [List.take_left' hlength, hlength, h, decide_true, Bool.and_self, if_true]
  exact (takes_forM_advance digits cs).bind (takes_pure _ cs)

/-- A control is told by its number. -/
theorem takes_unicodeEscape (h : c.toNat < 0x20) (cs : List Char) :
    Takes unicodeEscape ('0' :: '0' :: hexDigit (c.toNat / 16) :: hexDigit (c.toNat % 16) :: cs) c cs := by
  have hhigh : c.toNat / 16 < 16 := by omega
  have hlow : c.toNat % 16 < 16 := by omega
  have hvalue : ['0', '0', hexDigit (c.toNat / 16), hexDigit (c.toNat % 16)].foldl
      (fun n d => n * 16 + hexDigitValue d) 0 = c.toNat := by
    have hzero : hexDigitValue '0' = 0 := by decide
    simp only [List.foldl_cons, List.foldl_nil, hzero, hexDigitValue_hexDigit _ hhigh,
      hexDigitValue_hexDigit _ hlow]
    omega
  have hzero : isHexDigit '0' = true := by decide
  have hhex := takes_hexEscape ['0', '0', hexDigit (c.toNat / 16), hexDigit (c.toNat % 16)] rfl
    (by simp [isHexDigit_hexDigit _ hhigh, isHexDigit_hexDigit _ hlow, hzero]) cs
  rw [hvalue] at hhex
  refine hhex.bind ?_
  have hlone : (decide (0xDC00 ≤ c.toNat) && decide (c.toNat ≤ 0xDFFF)) = false := by
    simp; omega
  have hplain : (decide (c.toNat < 0xD800) || decide (0xDBFF < c.toNat)) = true := by
    simp; omega
  rw [hlone, hplain, if_neg Bool.false_ne_true, if_pos rfl, Char.ofNat_toNat]
  exact takes_pure c cs

theorem takes_escape_letter {letter : Char} (h : letterEscape? letter = some c) (byNumber : Reader Char)
    (cs : List Char) : Takes (escape byNumber) (letter :: cs) c cs := by
  refine (takes_peek? _).bind ?_
  simp only [List.head?_cons, h]
  exact (takes_advance letter cs).bind (takes_pure c cs)

theorem takes_escape_number {byNumber : Reader Char} (h : Takes byNumber cs c ds) :
    Takes (escape byNumber) ('u' :: cs) c ds :=
  (takes_peek? _).bind ((takes_advance 'u' cs).bind h)

section

variable {fuel : Nat} {read s : List Char}

theorem takes_stringBody_escape {es : List Char} (hescape : Takes (escape unicodeEscape) cs c ds)
    (h : Takes (stringBody fuel (c :: read)) ds s es) : Takes (stringBody (fuel + 1) read) ('\\' :: cs) s es :=
  (takes_peek? _).bind ((takes_advance '\\' cs).bind (hescape.bind h))

/-- A written character is read as that character. -/
theorem takes_stringBody_writtenChar (h : Takes (stringBody fuel (c :: read)) cs s ds) :
    Takes (stringBody (fuel + 1) read) (writtenChar c ++ cs) s ds := by
  have hletter {letter : Char} (hletter : letterEscape? letter = some c) :
      Takes (stringBody (fuel + 1) read) (['\\', letter] ++ cs) s ds :=
    takes_stringBody_escape (takes_escape_letter hletter unicodeEscape cs) h
  rw [writtenChar]
  split
  · subst c; exact hletter rfl
  split
  · subst c; exact hletter rfl
  split
  · subst c; exact hletter rfl
  split
  · subst c; exact hletter rfl
  split
  · subst c; exact hletter rfl
  split
  · subst c; exact hletter rfl
  split
  · subst c; exact hletter rfl
  split
  · rename_i hcontrol
    exact takes_stringBody_escape (takes_escape_number (takes_unicodeEscape hcontrol cs)) h
  · rename_i hquote hbackslash _ _ _ _ _ hcontrol
    refine (takes_peek? _).bind ?_
    simp only [List.singleton_append, List.head?_cons, if_neg hquote, if_neg hbackslash, if_neg hcontrol]
    exact (takes_advance c cs).bind h

end

/-- A written text is read up to the quote behind it. -/
theorem takes_stringBody (s cs : List Char) {fuel : Nat} (hfuel : s.length < fuel) (read : List Char) :
    Takes (stringBody fuel read) (s.flatMap writtenChar ++ '"' :: cs) (read.reverse ++ s) cs := by
  induction s generalizing fuel read with
  | nil =>
    obtain ⟨fuel, rfl⟩ := Nat.exists_eq_succ_of_ne_zero (Nat.ne_zero_of_lt hfuel)
    rw [List.append_nil]
    exact (takes_peek? _).bind ((takes_advance '"' cs).bind (takes_pure _ cs))
  | cons c s ih =>
    obtain ⟨fuel, rfl⟩ := Nat.exists_eq_succ_of_ne_zero (Nat.ne_zero_of_lt hfuel)
    have hrest := ih (Nat.lt_of_succ_lt_succ hfuel) (c :: read)
    rw [List.reverse_cons, List.append_assoc, List.singleton_append] at hrest
    rw [List.flatMap_cons, List.append_assoc]
    exact takes_stringBody_writtenChar hrest

theorem length_le_length_flatMap_writtenChar (s : List Char) : s.length ≤ (s.flatMap writtenChar).length := by
  induction s with
  | nil => exact Nat.le_refl 0
  | cons c s ih =>
    have hsome : 0 < (writtenChar c).length := by
      rw [writtenChar]
      repeat' split
      all_goals exact Nat.zero_lt_succ _
    rw [List.flatMap_cons, List.length_append, List.length_cons]
    omega

theorem toList_written (s : String) : (written s).toList = '"' :: (s.toList.flatMap writtenChar ++ ['"']) := by
  simp [written]

/-- A written character is no line feed, because controls are escaped. -/
theorem newline_notMem_writtenChar (c : Char) : '\n' ∉ writtenChar c := by
  have hhex : ∀ n < 16, '\n' ≠ hexDigit n := by decide
  rw [writtenChar]
  repeat' split
  case isFalse.isFalse.isFalse.isFalse.isFalse.isFalse.isFalse.isTrue h =>
    simp [hhex (c.toNat / 16) (by omega), hhex (c.toNat % 16) (by omega)]
  all_goals simp_all [eq_comm]

theorem newline_notMem_written (s : String) : '\n' ∉ (written s).toList := by
  simp [toList_written, newline_notMem_writtenChar]

/-- **A string is read back**, behind its opening quote. -/
theorem takes_string (s : String) (cs : List Char) :
    Takes string (s.toList.flatMap writtenChar ++ '"' :: cs) s cs := by
  have hfuel : s.toList.length < (s.toList.flatMap writtenChar ++ '"' :: cs).length + 1 := by
    have hle := length_le_length_flatMap_writtenChar s.toList
    rw [List.length_append]
    omega
  have hread := (takes_stringBody s.toList cs hfuel []).map String.ofList
  rw [List.reverse_nil, List.nil_append, String.ofList_toList] at hread
  exact (takes_rest _).bind hread

/-! ## Numbers -/

/-- Digits that make up no more than a bound are all added. -/
theorem absorb_of_le {bound : Nat} (ds : List Char) {n : Nat}
    (h : ds.foldl (fun n d => n * 10 + digitValue d) n ≤ bound) :
    absorb bound n ds = (ds.foldl (fun n d => n * 10 + digitValue d) n, []) := by
  have hle (ds : List Char) (n : Nat) : n ≤ ds.foldl (fun n d => n * 10 + digitValue d) n := by
    induction ds generalizing n with
    | nil => exact Nat.le_refl n
    | cons d ds ih => exact Nat.le_trans (by omega) (ih (n * 10 + digitValue d))
  induction ds generalizing n with
  | nil => rfl
  | cons d ds ih =>
    rw [absorb, if_pos (Nat.le_trans (hle ds _) h)]
    exact ih h

theorem absorb_toDigits {bound n : Nat} (h : n ≤ bound) : absorb bound 0 (Nat.toDigits 10 n) = (n, []) := by
  have hvalue := Number.natOfDigits_toDigits n
  rw [natOfDigits] at hvalue
  rw [absorb_of_le _ (by rwa [hvalue]), hvalue]

theorem isDigit_eq_false_of_ends (hcs : Ends cs) (h : cs.head? = some c) : c.isDigit = false := by
  obtain rfl | rfl | rfl := hcs c h <;> rfl

/-- The digits that a number is written with are taken to their end. -/
theorem takes_digits (n : Nat) (hcs : Ends cs) :
    Takes (takeWhile Char.isDigit) (Nat.toDigits 10 n ++ cs) (Nat.toDigits 10 n) cs := by
  have htake := takes_takeWhile Char.isDigit (Nat.toDigits 10 n ++ cs)
  have hall : ∀ d ∈ Nat.toDigits 10 n, d.isDigit = true := fun d => Number.isDigit_of_mem_toDigits
  have hnone : cs.takeWhile Char.isDigit = [] ∧ cs.dropWhile Char.isDigit = cs := by
    cases cs with
    | nil => exact ⟨rfl, rfl⟩
    | cons c cs => simp [isDigit_eq_false_of_ends hcs rfl]
  rwa [List.takeWhile_append_of_pos hall, List.dropWhile_append_of_pos hall, hnone.1, hnone.2,
    List.append_nil] at htake

/-- **A whole number is read back**, behind its sign. -/
theorem takes_number {isPositive : Bool} {n : Nat} {i : Int} (hn : n ≤ largestWord)
    (hi : wholeWord? isPositive n = some i) (hcs : Ends cs) :
    Takes (number isPositive) (Nat.toDigits 10 n ++ cs) (.whole i) cs := by
  obtain ⟨d, ds, hds, hd⟩ := Number.exists_cons_toDigits n
  have hwhole : Takes (number.whole isPositive n []) cs (.whole i) cs := by
    simp only [number.whole, List.isEmpty_nil, hi]
    exact takes_pure _ cs
  have hnext {f : Option Char → Reader Value} (hnone : f none = number.whole isPositive n [])
      (hsome : ∀ c, c = ',' ∨ c = ']' ∨ c = '\x7d' → f (some c) = number.whole isPositive n []) :
      Takes (peek? >>= f) cs (.whole i) cs := by
    refine (takes_peek? cs).bind ?_
    rcases hhead : cs.head? with _ | c
    · rwa [hnone]
    · rwa [hsome c (hcs c hhead)]
  have habsorb := absorb_toDigits hn
  have htake := takes_digits n hcs
  rw [hds] at habsorb htake ⊢
  refine (takes_peek? _).bind ?_
  simp only [List.cons_append, List.head?_cons, hd, Bool.not_true, Bool.false_eq_true, if_false]
  split
  case isTrue hzero =>
    obtain rfl : n = 0 := Number.eq_zero_of_head?_toDigits (by rw [hds, List.head?_cons, hzero])
    obtain rfl : [] = ds := (List.cons.inj hds).2
    subst hzero
    exact (takes_advance '0' cs).bind ((takes_pure ['0'] cs).bind (hnext rfl (by rintro _ (rfl | rfl | rfl) <;> rfl)))
  case isFalse hzero =>
    refine htake.bind ?_
    simp only [habsorb]
    exact hnext rfl (by rintro _ (rfl | rfl | rfl) <;> simp)

/-- A word, be it a signed one, begins with a digit or with a minus sign, and is read back behind that sign. -/
theorem takes_toString {i : Int} (hlow : -(Number.twoTo 63 : Int) ≤ i) (hhigh : i ≤ largestWord) :
    (∃ c ds, (toString i).toList = c :: ds ∧ c.isDigit = true ∧
      ∀ cs, Ends cs → Takes (number true) (c :: (ds ++ cs)) (.whole i) cs) ∨
    ∃ ds, (toString i).toList = '-' :: ds ∧ ∀ cs, Ends cs → Takes (number false) (ds ++ cs) (.whole i) cs := by
  rcases Int.lt_or_le i 0 with hneg | hpos
  · right
    obtain ⟨n, rfl⟩ := Int.exists_eq_neg_ofNat (Int.le_of_lt hneg)
    have hwhole : wholeWord? false n = some (-(n : Int)) := by
      have hfits : ¬ (decide (n = 0) || decide (n > Number.twoTo 63)) = true := by simp; omega
      rw [wholeWord?, if_neg Bool.false_ne_true, if_neg hfits]
    have hword : n ≤ largestWord := Nat.le_trans (by omega : n ≤ Number.twoTo 63) (by decide)
    exact ⟨_, Number.toList_toString_neg (by omega), fun cs hcs => takes_number hword hwhole hcs⟩
  · left
    obtain ⟨n, rfl⟩ := Int.eq_ofNat_of_zero_le hpos
    obtain ⟨c, ds, hds, hdigit⟩ := Number.exists_cons_toDigits n
    have hs : (toString (n : Int)).toList = Nat.toDigits 10 n := by
      change (toString n).toList = _
      simp
    refine ⟨c, ds, hs.trans hds, hdigit, fun cs hcs => ?_⟩
    rw [← List.cons_append, ← hds]
    exact takes_number (Int.ofNat_le.mp hhigh) rfl hcs

end Reader

end Scratchpad.Json
