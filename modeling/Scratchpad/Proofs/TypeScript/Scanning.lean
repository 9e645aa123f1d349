import Scratchpad.TypeScript.Token.Scan

/-!
# Scanning behind another text

Scanning looks at what stands at a position and behind it, and never back. So behind another text everything is
read as it is read without it, at positions that many characters further on. Only the beginning of a source
counts as the beginning of a line without a line end in front of it.

## Main definitions

* `Flaw.shift`, `Notice.shift`, `Lexeme.shift`, `Token.shift`: what is read, so many characters further on.

## Main statements

* `skipGap_append`, `scanLexeme_append`: gaps and lexemes behind another text.
* `scanToken_append`: tokens behind another text.
* `scanToken_append_zero`: the first token behind a text that ends a line.
-/

namespace Scratchpad.TypeScript

/-! ## Positions further on -/

/-- A flaw so many characters further on. -/
def Flaw.shift (n : Nat) (flaw : Flaw) : Flaw := { flaw with pos := n + flaw.pos }

/-- What was noted, so many characters further on. -/
def Notice.shift (n : Nat) (notice : Notice) : Notice := { notice with flaw := notice.flaw.shift n }

/-- A lexeme so many characters further on. Only one that cannot be read tells where it stands. -/
def Lexeme.shift (n : Nat) : Lexeme → Lexeme
  | .broken flaw => .broken (flaw.shift n)
  | lexeme => lexeme

/-- A token so many characters further on. -/
def Token.shift (n : Nat) (t : Token) : Token :=
  { t with
    lexeme := t.lexeme.shift n
    start := n + t.start
    stop := n + t.stop
    notices := t.notices.map (Notice.shift n) }

variable (front s : Source)

/-! ## Characters -/

@[simp] theorem getElem?_append_size (i : Nat) : (front ++ s)[front.size + i]? = s[i]? := by
  rw [Array.getElem?_append_right (Nat.le_add_right ..), Nat.add_sub_cancel_left]

@[simp] theorem getElem?_append_size_add (i k : Nat) : (front ++ s)[front.size + i + k]? = s[i + k]? := by
  rw [Nat.add_assoc, getElem?_append_size]

theorem getElem_append_size {i : Nat} (h : i < s.size) (h' : front.size + i < (front ++ s).size) :
    (front ++ s)[front.size + i] = s[i] := by
  apply Option.some.inj
  rw [← Array.getElem?_eq_getElem h', ← Array.getElem?_eq_getElem h, getElem?_append_size]

theorem size_add_lt_iff (i : Nat) : front.size + i < (front ++ s).size ↔ i < s.size := by
  rw [Array.size_append]
  omega

theorem hasAt_append (i : Nat) (t : String) : (front ++ s).hasAt (front.size + i) t = s.hasAt i t := by
  simp only [Source.hasAt, getElem?_append_size_add]

theorem test_append (i : Nat) (p : Char → Bool) : Source.test (front ++ s) (front.size + i) p = s.test i p := by
  rw [Source.test, Source.test, getElem?_append_size]

theorem extract_append (i j : Nat) :
    (front ++ s).extract (front.size + i) (front.size + j) = s.extract i j := by
  rw [Array.extract_append, Array.extract_eq_empty_of_le (by omega), Nat.add_sub_cancel_left,
    Nat.add_sub_cancel_left, Array.empty_append]

theorem slice_append (i j : Nat) :
    Source.slice (front ++ s) (front.size + i) (front.size + j) = s.slice i j := by
  rw [Source.slice, Source.slice, extract_append]

theorem advance_append (p : Char → Bool) (i : Nat) :
    Source.advance (front ++ s) p (front.size + i) = front.size + s.advance p i := by
  fun_induction s.advance p i with
  | case1 i h hp ih =>
    have h' := (size_add_lt_iff front s i).mpr h
    rw [Source.advance, dif_pos h', getElem_append_size front s h h', if_pos hp, Nat.add_assoc, ih]
  | case2 i h hp =>
    have h' := (size_add_lt_iff front s i).mpr h
    rw [Source.advance, dif_pos h', getElem_append_size front s h h', if_neg hp]
  | case3 i h =>
    have h' := mt (size_add_lt_iff front s i).mp h
    rw [Source.advance, dif_neg h']

/-! ## Gaps -/

theorem commentEnd_append (i : Nat) (endsLine : Bool) :
    commentEnd (front ++ s) (front.size + i) endsLine =
      (front.size + (commentEnd s i endsLine).1, (commentEnd s i endsLine).2) := by
  fun_induction commentEnd s i endsLine with
  | case1 i endsLine h hend =>
    have h' := (size_add_lt_iff front s i).mpr h
    rw [commentEnd, dif_pos h', getElem_append_size front s h h', getElem?_append_size_add, if_pos hend]
    rfl
  | case2 i endsLine h hend ih =>
    have h' := (size_add_lt_iff front s i).mpr h
    rw [commentEnd, dif_pos h', getElem_append_size front s h h', getElem?_append_size_add, if_neg hend,
      Nat.add_assoc, ih]
  | case3 i endsLine h =>
    have h' := mt (size_add_lt_iff front s i).mp h
    rw [commentEnd, dif_neg h', Array.size_append]

theorem skipGap_append (i : Nat) (endsLine : Bool) (notices : List Notice) :
    skipGap (front ++ s) (front.size + i) endsLine (notices.map (Notice.shift front.size)) =
      let gap := skipGap s i endsLine notices
      ⟨front.size + gap.stop, gap.endsLine, gap.notices.map (Notice.shift front.size)⟩ := by
  have hopen : ∀ (i : Nat) (h : i < s.size) (endsLine : Bool) (notices : List Notice),
      skipGap (front ++ s) (front.size + i) endsLine notices =
        if isLineBreak s[i] then skipGap (front ++ s) (front.size + (i + 1)) true notices
        else if isBlank s[i] then skipGap (front ++ s) (front.size + (i + 1)) endsLine notices
        else if s[i] == '/' && s[i + 1]? == some '/' then
          skipGap (front ++ s) (front.size + max (i + 1) (s.advance (fun c => !isLineBreak c) i)) endsLine notices
        else if s[i] == '/' && s[i + 1]? == some '*' then
          let e := commentEnd s (i + 2) endsLine
          skipGap (front ++ s) (front.size + max (i + 1) e.1) e.2.1
            (if e.2.2 then notices
              else notices ++ [⟨⟨front.size + s.size, .unterminatedComment⟩, .anywhere⟩])
        else if s.hasAt i "<!--" || (endsLine && s.hasAt i "-->") then
          skipGap (front ++ s) (front.size + max (i + 1) (s.advance (fun c => !isLineBreak c) i)) endsLine
            (notices ++ [⟨⟨front.size + i, .markupComment⟩, .moduleCode⟩])
        else ⟨front.size + i, endsLine, notices⟩ := by
    intro i h endsLine notices
    have h' := (size_add_lt_iff front s i).mpr h
    rw [skipGap, dif_pos h']
    simp only [getElem_append_size front s h h', hasAt_append, advance_append, Nat.add_assoc,
      getElem?_append_size, commentEnd_append, Nat.add_max_add_left, Array.size_append]
  fun_induction skipGap s i endsLine notices with
  | case1 i endsLine notices h c hbreak ih => rw [hopen i h, if_pos hbreak, ih]
  | case2 i endsLine notices h c hbreak hblank ih => rw [hopen i h, if_neg hbreak, if_pos hblank, ih]
  | case3 i endsLine notices h c hbreak hblank hline ih =>
    rw [hopen i h, if_neg hbreak, if_neg hblank, if_pos hline, ih]
  | case4 i endsLine notices h c hbreak hblank hline hblock e notices' ih =>
    rw [hopen i h, if_neg hbreak, if_neg hblank, if_neg hline, if_pos hblock, ← ih]
    refine congrArg (skipGap (front ++ s) (front.size + max (i + 1) e.1) e.2.1) ?_
    by_cases hend : e.2.2 = true
    · have hnotices : notices' = notices := dif_pos hend
      rw [if_pos hend, hnotices]
    · have hnotices : notices' = notices ++ [⟨⟨s.size, .unterminatedComment⟩, .anywhere⟩] := dif_neg hend
      rw [if_neg hend, hnotices, List.map_append]
      rfl
  | case5 i endsLine notices h c hbreak hblank hline hblock hmarkup ih =>
    rw [hopen i h, if_neg hbreak, if_neg hblank, if_neg hline, if_neg hblock, if_pos hmarkup, ← ih,
      List.map_append]
    rfl
  | case6 i endsLine notices h c hbreak hblank hline hblock hmarkup =>
    rw [hopen i h, if_neg hbreak, if_neg hblank, if_neg hline, if_neg hblock, if_neg hmarkup]
  | case7 i endsLine notices h =>
    rw [skipGap, dif_neg (mt (size_add_lt_iff front s i).mp h)]

/-! ## Escapes -/

theorem hexNumber_append (i count : Nat) :
    hexNumber (front ++ s) (front.size + i) count = hexNumber s i count := by
  simp only [hexNumber, getElem?_append_size_add]

theorem unicodeEscape_append (i : Nat) :
    unicodeEscape (front ++ s) (front.size + i) =
      (unicodeEscape s i).map fun (n, stop) => (n, front.size + stop) := by
  simp only [unicodeEscape, Nat.add_assoc, getElem?_append_size, advance_append, extract_append,
    hexNumber_append, gt_iff_lt, Nat.add_lt_add_iff_left]
  split
  · split
    · split <;> rfl
    · rfl
  · rw [Option.map_map]
    rfl

/-- What a backslash sequence stands for, so many characters further on. -/
def Escape.shift (n : Nat) : Escape → Escape
  | .stands value stop => .stands value (n + stop)
  | .octal value stop => .octal value (n + stop)
  | .malformed => .malformed

theorem scanEscape_append (i : Nat) :
    scanEscape (front ++ s) (front.size + i) = (scanEscape s i).shift front.size := by
  simp only [scanEscape, Nat.add_assoc, getElem?_append_size, hexNumber_append, unicodeEscape_append,
    test_append]
  cases hc : s[i + 1]? with
  | none => rfl
  | some c =>
    dsimp only
    split <;> try rfl
    · split <;> rfl
    · cases hexNumber s (i + 2) 2 <;> rfl
    · cases unicodeEscape s (i + 1) <;> rfl
    · split
      · rfl
      · split <;> rfl

/-! ## Words -/

/-- What has been read of a word, so many characters further on. -/
def shiftWord (n : Nat) : Except Flaw (List Char × Nat × Bool) → Except Flaw (List Char × Nat × Bool)
  | .error flaw => .error (flaw.shift n)
  | .ok (chars, stop, isEscaped) => .ok (chars, n + stop, isEscaped)

/-- What reading a word does with one character, behind another text. -/
theorem scanWordPart_append_of_lt (i : Nat) (h : i < s.size) (acc : List Char) (isEscaped : Bool) :
    scanWordPart (front ++ s) (front.size + i) acc isEscaped =
      if isWordPart s[i] then scanWordPart (front ++ s) (front.size + (i + 1)) (s[i] :: acc) isEscaped
      else if s[i] == '\\' then
        if s[i + 1]? != some 'u' then .error ⟨front.size + i, .escapeExpected⟩
        else match unicodeEscape s (i + 1) with
          | none => .error ⟨front.size + i, .badEscape⟩
          | some (n, j) =>
            if (if acc.isEmpty then isWordStart (Char.ofNat n) else isWordPart (Char.ofNat n)) then
              scanWordPart (front ++ s) (front.size + max (i + 1) j) (Char.ofNat n :: acc) true
            else .error ⟨front.size + i, .invalidWordCharacter⟩
      else .ok (acc, front.size + i, isEscaped) := by
  have h' := (size_add_lt_iff front s i).mpr h
  rw [scanWordPart, dif_pos h']
  simp only [getElem_append_size front s h h', Nat.add_assoc, getElem?_append_size, unicodeEscape_append]
  cases unicodeEscape s (i + 1) with
  | none => rfl
  | some escape => simp only [Option.map_some, Nat.add_max_add_left]

theorem scanWordPart_append (i : Nat) (acc : List Char) (isEscaped : Bool) :
    scanWordPart (front ++ s) (front.size + i) acc isEscaped =
      shiftWord front.size (scanWordPart s i acc isEscaped) := by
  have hopen := scanWordPart_append_of_lt front s
  fun_induction scanWordPart s i acc isEscaped with
  | case1 i acc isEscaped h c hpart ih => rw [hopen i h, if_pos hpart, ih]
  | case2 i acc isEscaped h c hpart hslash hother => 
    rw [hopen i h, if_neg hpart, if_pos hslash, if_pos hother]
    rfl
  | case3 i acc isEscaped h c hpart hslash hother hnone =>
    rw [hopen i h, if_neg hpart, if_pos hslash, if_neg hother, hnone]
    rfl
  | case4 i acc isEscaped h c hpart hslash hother n j hsome d hfits ih =>
    rw [hopen i h, if_neg hpart, if_pos hslash, if_neg hother, hsome]
    exact (if_pos hfits).trans ih
  | case5 i acc isEscaped h c hpart hslash hother n j hsome d hfits =>
    rw [hopen i h, if_neg hpart, if_pos hslash, if_neg hother, hsome]
    exact if_neg hfits
  | case6 i acc isEscaped h c hpart hslash =>
    rw [hopen i h, if_neg hpart, if_neg hslash]
    rfl
  | case7 i acc isEscaped h =>
    rw [scanWordPart, dif_neg (mt (size_add_lt_iff front s i).mp h)]
    rfl

/-! ## Numbers -/

theorem scanDigits_append (isDigit : Char → Bool) (i : Nat) :
    scanDigits (front ++ s) isDigit (front.size + i) =
      (front.size + (scanDigits s isDigit i).1, (scanDigits s isDigit i).2) := by
  simp only [scanDigits, advance_append, Nat.add_sub_add_left, Nat.add_assoc, getElem?_append_size,
    test_append, Prod.mk.injEq, true_and]
  refine congrArg (List.any _) (funext fun k => ?_)
  cases k with
  | zero => rfl
  | succ k =>
    have hbefore : front.size + (i + (k + 1)) - 1 = front.size + (i + (k + 1) - 1) := by omega
    rw [hbefore, test_append]

/-- Where a fraction ends, so many characters further on. -/
def shiftFraction (n : Nat) : Except Flaw (Nat × Bool) → Except Flaw (Nat × Bool)
  | .error flaw => .error (flaw.shift n)
  | .ok (stop, bad) => .ok (n + stop, bad)

theorem scanFraction_append (i : Nat) :
    scanFraction (front ++ s) (front.size + i) = shiftFraction front.size (scanFraction s i) := by
  have hpoint : (if (front ++ s)[front.size + i]? == some '.' then
      scanDigits (front ++ s) Char.isDigit (front.size + i + 1) else (front.size + i, false)) =
      (front.size + (if s[i]? == some '.' then scanDigits s Char.isDigit (i + 1) else (i, false)).1,
        (if s[i]? == some '.' then scanDigits s Char.isDigit (i + 1) else (i, false)).2) := by
    rw [getElem?_append_size, Nat.add_assoc, scanDigits_append]
    split <;> rfl
  rw [scanFraction, scanFraction, hpoint]
  generalize (if s[i]? == some '.' then scanDigits s Char.isDigit (i + 1) else (i, false)) = point
  obtain ⟨j, bad⟩ := point
  have hsign : ∀ (c : Prop) [Decidable c], (if c then front.size + (j + 2) else front.size + (j + 1)) =
      front.size + if c then j + 2 else j + 1 := by
    intro c _
    split <;> rfl
  simp only [Nat.add_assoc, getElem?_append_size, hsign, test_append, scanDigits_append]
  generalize (if s[j + 1]? == some '+' || s[j + 1]? == some '-' then j + 2 else j + 1) = k
  split
  · split <;> rfl
  · rfl

/-- What has been scanned, so many characters further on. -/
def shiftScanned (n : Nat) (scanned : Lexeme × Nat × List Notice) : Lexeme × Nat × List Notice :=
  (scanned.1.shift n, n + scanned.2.1, scanned.2.2.map (Notice.shift n))

theorem scanNumber_append (i : Nat) :
    scanNumber (front ++ s) (front.size + i) = shiftScanned front.size (scanNumber s i) := by
  unfold scanNumber
  extract_lets finish' separator' decimal' finish separator decimal
  have hfinish : ∀ j isInteger notices,
      finish' (front.size + j) isInteger (notices.map (Notice.shift front.size)) =
        shiftScanned front.size (finish j isInteger notices) := by
    intro j isInteger notices
    simp only [finish', finish, getElem?_append_size, Nat.add_assoc, slice_append]
    by_cases hn : (isInteger && s[j]? == some 'n') = true
    · simp only [if_pos hn, test_append]
      split <;> rfl
    · simp only [if_neg hn, test_append]
      split <;> rfl
  have hseparator : ∀ bad, separator' bad = (separator bad).map (Notice.shift front.size) := by
    intro bad
    cases bad <;> rfl
  have hdecimal : ∀ j notices, decimal' (front.size + j) (notices.map (Notice.shift front.size)) =
      shiftScanned front.size (decimal j notices) := by
    intro j notices
    simp only [decimal', decimal, getElem?_append_size, scanFraction_append, hfinish, hseparator]
    split
    · rfl
    · cases scanFraction s j with
      | error flaw => rfl
      | ok fraction =>
        dsimp only
        rw [← hfinish, List.map_append]
        rfl
  have hsame : ∀ j k : Nat, (front.size + j == front.size + k) = (j == k) := fun j k => by
    rw [Bool.eq_iff_iff, beq_iff_eq, beq_iff_eq, Nat.add_left_cancel_iff]
  clear_value finish' separator' decimal' finish separator decimal
  simp only [getElem?_append_size, Nat.add_assoc, scanDigits_append, extract_append, hsame, hseparator]
  split
  · exact hdecimal i []
  · split
    · split
      · rfl
      · exact hfinish ..
    · split
      · exact hdecimal _ []
      · split
        · rw [← hfinish, List.map_append]
          rfl
        · rw [← hdecimal, List.map_append]
          rfl
  · exact hdecimal ..

/-! ## Quoted text -/

/-- What reading a quoted text does with one character, behind another text. -/
theorem scanQuoted_append_of_lt (quote : Char) (start i : Nat) (h : i < s.size) (acc : List Char)
    (notices : List Notice) :
    scanQuoted (front ++ s) quote (front.size + start) (front.size + i) acc notices =
      if s[i] == quote then
        (.text (s.slice start (i + 1)) (String.ofList acc.reverse), front.size + (i + 1), notices)
      else if s[i] == '\n' || s[i] == '\r' then
        (.text (s.slice start i) (String.ofList acc.reverse), front.size + i,
          notices ++ [⟨⟨front.size + start, .unterminatedText⟩, .anywhere⟩])
      else if s[i] == '\\' then
        match scanEscape s i with
        | .stands (some n) j =>
          scanQuoted (front ++ s) quote (front.size + start) (front.size + max (i + 1) j)
            (Char.ofNat n :: acc) notices
        | .stands none j =>
          scanQuoted (front ++ s) quote (front.size + start) (front.size + max (i + 1) j) acc notices
        | .octal n j =>
          scanQuoted (front ++ s) quote (front.size + start) (front.size + max (i + 1) j)
            (Char.ofNat n :: acc) (notices ++ [⟨⟨front.size + i, .octalInStrictCode⟩, .strictCode⟩])
        | .malformed =>
          if i + 1 < s.size then (.broken ⟨front.size + i, .badEscape⟩, front.size + (i + 1), notices)
          else (.text (s.slice start s.size) (String.ofList acc.reverse), front.size + s.size,
            notices ++ [⟨⟨front.size + start, .unterminatedText⟩, .anywhere⟩])
      else scanQuoted (front ++ s) quote (front.size + start) (front.size + (i + 1)) (s[i] :: acc)
        notices := by
  have h' := (size_add_lt_iff front s i).mpr h
  rw [scanQuoted, dif_pos h']
  simp only [getElem_append_size front s h h', Nat.add_assoc, slice_append, scanEscape_append,
    Array.size_append, Nat.add_lt_add_iff_left]
  cases scanEscape s i with
  | stands value j => cases value <;> simp only [Escape.shift, Nat.add_max_add_left]
  | octal n j => simp only [Escape.shift, Nat.add_max_add_left]
  | malformed => rfl

theorem scanQuoted_append (quote : Char) (start i : Nat) (acc : List Char) (notices : List Notice) :
    scanQuoted (front ++ s) quote (front.size + start) (front.size + i) acc
        (notices.map (Notice.shift front.size)) =
      shiftScanned front.size (scanQuoted s quote start i acc notices) := by
  have hopen := scanQuoted_append_of_lt front s quote start
  fun_induction scanQuoted s quote start i acc notices with
  | case1 i acc notices h c hquote =>
    rw [hopen i h, if_pos hquote]
    rfl
  | case2 i acc notices h c hquote hbreak =>
    rw [hopen i h, if_neg hquote, if_pos hbreak, shiftScanned, List.map_append]
    rfl
  | case3 i acc notices h c hquote hbreak hslash n j hescape ih =>
    rw [hopen i h, if_neg hquote, if_neg hbreak, if_pos hslash, hescape]
    exact ih
  | case4 i acc notices h c hquote hbreak hslash j hescape ih =>
    rw [hopen i h, if_neg hquote, if_neg hbreak, if_pos hslash, hescape]
    exact ih
  | case5 i acc notices h c hquote hbreak hslash n j hescape ih =>
    rw [hopen i h, if_neg hquote, if_neg hbreak, if_pos hslash, hescape, ← ih, List.map_append]
    rfl
  | case6 i acc notices h c hquote hbreak hslash hescape hnext =>
    rw [hopen i h, if_neg hquote, if_neg hbreak, if_pos hslash, hescape]
    exact if_pos hnext
  | case7 i acc notices h c hquote hbreak hslash hescape hnext =>
    rw [hopen i h, if_neg hquote, if_neg hbreak, if_pos hslash, hescape, shiftScanned, List.map_append]
    exact if_neg hnext
  | case8 i acc notices h c hquote hbreak hslash ih =>
    rw [hopen i h, if_neg hquote, if_neg hbreak, if_neg hslash]
    exact ih
  | case9 i acc notices h =>
    rw [scanQuoted, dif_neg (mt (size_add_lt_iff front s i).mp h), shiftScanned, List.map_append, slice_append]
    rfl

/-! ## Tokens -/

theorem scanMark_append (i : Nat) : scanMark (front ++ s) (front.size + i) = scanMark s i := by
  simp only [scanMark, hasAt_append, Nat.add_assoc, test_append]

theorem scanLexeme_append (i : Nat) :
    scanLexeme (front ++ s) (front.size + i) = shiftScanned front.size (scanLexeme s i) := by
  have hquoted (quote : Char) := scanQuoted_append front s quote i (i + 1) [] []
  rw [List.map_nil] at hquoted
  simp only [scanLexeme, getElem?_append_size, scanWordPart_append, Nat.add_assoc, test_append,
    scanNumber_append, hquoted, scanMark_append]
  cases s[i]? with
  | none => rfl
  | some c =>
    dsimp only
    split
    · cases scanWordPart s i [] false with
      | error flaw => rfl
      | ok word =>
        dsimp only [shiftWord]
        split <;> rfl
    · split
      · rfl
      · split
        · rfl
        · cases scanMark s i <;> rfl

/-- Except at the beginning of a source, a token is read behind another text as it is read without it. -/
theorem scanToken_append {i : Nat} (hi : 0 < i) :
    scanToken (front ++ s) (front.size + i) = (scanToken s i).shift front.size := by
  have hgap := skipGap_append front s i false []
  rw [List.map_nil] at hgap
  have h0 : (i == 0) = false := by simpa using Nat.ne_of_gt hi
  have h0' : (front.size + i == 0) = false := by simpa using Nat.ne_of_gt (Nat.add_pos_right front.size hi)
  simp only [scanToken, h0, h0', hgap, scanLexeme_append, shiftScanned]
  rw [Token.shift, List.map_append]

/-- Behind a line end a source begins as it begins without anything in front of it. -/
theorem scanToken_append_zero {c : Char} (hfront : front.back? = some c) (hc : isLineBreak c = true) :
    scanToken (front ++ s) (front.size - 1) = (scanToken s 0).shift front.size := by
  have hlast : front[front.size - 1]? = some c := by rwa [← Array.back?_eq_getElem?]
  obtain ⟨hlt, hlast⟩ := Array.getElem?_eq_some_iff.mp hlast
  have hlt' : front.size - 1 < (front ++ s).size := by
    rw [Array.size_append]
    omega
  have hchar : (front ++ s)[front.size - 1] = c := by rw [Array.getElem_append_left hlt, hlast]
  have hgap := skipGap_append front s 0 true []
  rw [List.map_nil, Nat.add_zero] at hgap
  have hstep : ∀ endsLine, skipGap (front ++ s) (front.size - 1) endsLine [] =
      skipGap (front ++ s) front.size true [] := by
    intro endsLine
    rw [skipGap, dif_pos hlt', hchar, if_pos hc, Nat.sub_add_cancel (Nat.one_le_of_lt hlt)]
  have h0 : ((0 : Nat) == 0) = true := rfl
  simp only [scanToken, hstep, hgap, h0, scanLexeme_append, shiftScanned]
  rw [Token.shift, List.map_append]

/-! ## What stands at a position -/

section

variable {s : Source} {i : Nat}

theorem getElem?_of_drop {c : Char} {rest : List Char} (h : s.toList.drop i = c :: rest) : s[i]? = some c := by
  rw [← Array.getElem?_toList, ← List.head?_drop, h, List.head?_cons]

theorem drop_succ_of_drop {c : Char} {rest : List Char} (h : s.toList.drop i = c :: rest) :
    s.toList.drop (i + 1) = rest := by
  rw [← List.tail_drop, h, List.tail_cons]

/-- No gap is in front of a character that begins a token. -/
theorem skipGap_of_drop {c : Char} {rest : List Char} (h : s.toList.drop i = c :: rest)
    (hc : (isLineBreak c || isBlank c || "/<-".toList.contains c) = false) (endsLine : Bool)
    (notices : List Notice) : skipGap s i endsLine notices = ⟨i, endsLine, notices⟩ := by
  obtain ⟨hlt, hi⟩ := Array.getElem?_eq_some_iff.mp (getElem?_of_drop h)
  simp at hc
  obtain ⟨⟨hbreak, hblank⟩, hslash, hless, hminus⟩ := hc
  rw [skipGap, dif_pos hlt]
  simp [hi, hbreak, hblank, hslash, Source.hasAt, getElem?_of_drop h, hless, hminus]

theorem skipGap_blank {c : Char} {rest : List Char} (h : s.toList.drop i = c :: rest) (hbreak : isLineBreak c = false) (hc : isBlank c = true)
    (endsLine : Bool) (notices : List Notice) :
    skipGap s i endsLine notices = skipGap s (i + 1) endsLine notices := by
  obtain ⟨hlt, hi⟩ := Array.getElem?_eq_some_iff.mp (getElem?_of_drop h)
  rw [skipGap, dif_pos hlt]
  simp [hi, hbreak, hc]

theorem scanWordPart_of_drop {w : List Char} {c : Char} {rest : List Char} (h : s.toList.drop i = w ++ c :: rest)
    (hw : w.all isWordPart = true) (hc : isWordPart c = false) (hslash : c ≠ '\\') (acc : List Char)
    (isEscaped : Bool) :
    scanWordPart s i acc isEscaped = .ok (w.reverse ++ acc, i + w.length, isEscaped) := by
  induction w generalizing i acc with
  | nil =>
    obtain ⟨hlt, hi⟩ := Array.getElem?_eq_some_iff.mp (getElem?_of_drop h)
    rw [scanWordPart, dif_pos hlt]
    simp [hi, hc, hslash]
  | cons d w ih =>
    obtain ⟨hlt, hi⟩ := Array.getElem?_eq_some_iff.mp (getElem?_of_drop h)
    rw [List.all_cons, Bool.and_eq_true] at hw
    rw [scanWordPart, dif_pos hlt]
    dsimp only
    rw [hi, if_pos hw.1, ih (drop_succ_of_drop h) hw.2, List.reverse_cons, List.append_assoc, List.length_cons,
      Nat.add_right_comm]
    rfl

theorem scanQuoted_of_drop {quote : Char} {w rest : List Char} (h : s.toList.drop i = w ++ quote :: rest)
    (hw : ∀ c ∈ w, c ≠ quote ∧ c ≠ '\n' ∧ c ≠ '\r' ∧ c ≠ '\\') (start : Nat) (acc : List Char)
    (notices : List Notice) :
    scanQuoted s quote start i acc notices =
      (.text (s.slice start (i + w.length + 1)) (String.ofList (acc.reverse ++ w)), i + w.length + 1,
        notices) := by
  induction w generalizing i acc with
  | nil =>
    obtain ⟨hlt, hi⟩ := Array.getElem?_eq_some_iff.mp (getElem?_of_drop h)
    rw [scanQuoted, dif_pos hlt]
    simp [hi]
  | cons c w ih =>
    obtain ⟨hlt, hi⟩ := Array.getElem?_eq_some_iff.mp (getElem?_of_drop h)
    obtain ⟨hquote, hn, hr, hslash⟩ := hw c List.mem_cons_self
    rw [scanQuoted, dif_pos hlt]
    dsimp only
    rw [hi]
    simp only [beq_iff_eq, hquote, hn, hr, hslash, if_false, Bool.or_eq_true, or_self]
    rw [ih (drop_succ_of_drop h) (fun d hd => hw d (List.mem_cons_of_mem c hd)), List.reverse_cons,
      List.append_assoc, List.singleton_append, List.length_cons, Nat.add_right_comm i 1, Nat.add_assoc i]

theorem scanMark_semicolon (h : s[i]? = some ';') : scanMark s i = some ";" := by
  simp [scanMark, marks, Source.hasAt, h]

theorem scanMark_hash (h : s[i]? = some '#') : scanMark s i = some "#" := by
  simp [scanMark, marks, Source.hasAt, h]

theorem scanMark_not (h : s[i]? = some '!') (h' : s[i + 1]? ≠ some '=') : scanMark s i = some "!" := by
  simp [scanMark, marks, Source.hasAt, h, h']

theorem scanLexeme_mark {c : Char} (h : s[i]? = some c) {m : String} (hm : scanMark s i = some m) (hc : (isWordStart c || c.isDigit || "\\.\"'".toList.contains c) = false)  :
    scanLexeme s i = (.mark m, i + m.length, []) := by
  simp at hc
  simp [scanLexeme, h, hm, hc]

theorem slice_of_drop {w rest : List Char} (h : s.toList.drop i = w ++ rest) :
    s.slice i (i + w.length) = String.ofList w := by
  rw [Source.slice, Array.toList_extract, List.extract_eq_drop_take', List.drop_take, h]
  simp

theorem scanLexeme_word {w : List Char} {c d : Char} {rest : List Char}
    (h : s.toList.drop i = c :: w ++ d :: rest) (hc : isWordStart c = true)
    (hw : (c :: w).all isWordPart = true) (hd : isWordPart d = false) (hslash : d ≠ '\\') :
    scanLexeme s i = (.word (String.ofList (c :: w)) false, i + (c :: w).length, []) := by
  simp only [scanLexeme, getElem?_of_drop h, hc, scanWordPart_of_drop h hw hd hslash]
  simp

theorem scanLexeme_text {w rest : List Char} (h : s.toList.drop i = '"' :: w ++ '"' :: rest)
    (hw : ∀ c ∈ w, c ≠ '"' ∧ c ≠ '\n' ∧ c ≠ '\r' ∧ c ≠ '\\') :
    scanLexeme s i = (.text (String.ofList ('"' :: w ++ ['"'])) (String.ofList w), i + w.length + 2, []) := by
  have hslice : s.slice i (i + ('"' :: w ++ ['"']).length) = String.ofList ('"' :: w ++ ['"']) :=
    @slice_of_drop s i ('"' :: w ++ ['"']) rest (by rw [h]; simp)
  have hword : (isWordStart '"' || '"' == '\\') = false := by decide
  have hnumber : (Char.isDigit '"' || '"' == '.' && s.test (i + 1) Char.isDigit) = false := rfl
  rw [scanLexeme, getElem?_of_drop h]
  dsimp only
  rw [hword, hnumber]
  simp only [scanQuoted_of_drop (drop_succ_of_drop h) hw]
  rw [← hslice]
  simp [Nat.add_assoc, Nat.add_comm 1]

theorem scanToken_mark {c : Char} {rest : List Char} {m : String} (h : s.toList.drop i = c :: rest)
    (hgap : (isLineBreak c || isBlank c || "/<-".toList.contains c) = false)
    (hc : (isWordStart c || c.isDigit || "\\.\"'".toList.contains c) = false) (hm : scanMark s i = some m) :
    scanToken s i = ⟨.mark m, i, i + m.length, i == 0, []⟩ := by
  simp only [scanToken, skipGap_of_drop h hgap, scanLexeme_mark (getElem?_of_drop h) hm hc, List.nil_append]

end

end Scratchpad.TypeScript
