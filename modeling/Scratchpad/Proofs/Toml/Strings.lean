import Scratchpad.Proofs.Toml.Escapes

/-!
# Texts in quotes read back

Each way to write a text in quotes can hold some texts. A text that is written in a way that can hold it is a single
token, and is read back from that token.

## Main definitions

* `IsLexeme`: a text that is cut off as one token.
* `CanHold`: whether a way to write texts can hold a text.

## Main statements

* `isLexeme_writtenAs`: a text in quotes is a single token.
* `textOf_writtenAs`: a text in quotes is read back.
* `canHold_quoting`, `canHold_nameQuoting`: the way that is chosen can hold a text.
-/

namespace Scratchpad.Toml

variable {c : Char} {cs ds : List Char} {isLong : Bool}

/-! ## Tokens -/

/-- A text is cut off as one token of a kind in front of whatever cannot stand in a bare word. -/
def IsLexeme (kind : Kind) (text : List Char) : Prop :=
  ∃ c cs, text = c :: cs ∧ ∀ d rest, isBare d = false → cut c (cs ++ d :: rest) = (kind, text, d :: rest)

/-! ## Marks -/

theorem le_longestRun (mark : Char) (run : Nat) (cs : List Char) : run ≤ longestRun mark run cs := by
  induction cs generalizing run with
  | nil => exact Nat.le_refl run
  | cons c cs ih =>
    rw [longestRun]
    split
    · exact Nat.le_trans (Nat.le_succ run) (ih (run + 1))
    · exact Nat.le_max_left _ _

theorem notMem_of_longestRun {mark : Char} (h : longestRun mark 0 cs = 0) : mark ∉ cs := by
  induction cs with
  | nil => exact List.not_mem_nil
  | cons c cs ih =>
    rw [longestRun] at h
    split at h
    · have hle := le_longestRun mark (0 + 1) cs
      omega
    · rw [Nat.zero_max] at h
      exact List.not_mem_cons_of_ne_of_not_mem (Ne.symm ‹_›) (ih h)

/-- A text without apostrophes ends at the first one. -/
theorem cutLiteral_of_notMem (hmark : '\'' ∉ cs) (hline : '\n' ∉ cs) (rest : List Char) :
    cutLiteral (cs ++ '\'' :: rest) = (cs ++ ['\''], rest) := by
  induction cs with
  | nil => rfl
  | cons c cs ih =>
    rw [List.mem_cons, not_or] at hmark hline
    rw [List.cons_append, cutLiteral, if_neg (Ne.symm hmark.1), if_neg (Ne.symm hline.1), ih hmark.2 hline.2]
    rfl

theorem cutLongLiteral_cons (h : ∀ ds, c :: cs ≠ '\'' :: '\'' :: '\'' :: ds) :
    cutLongLiteral (c :: cs) = onto [c] (cutLongLiteral cs) := by
  rw [cutLongLiteral.eq_def]
  split <;> grind

/-- Up to two apostrophes in front of something else do not end a text of many lines. -/
theorem cutLongLiteral_run {run : Nat} (hrun : run ≤ 2) (hc : c ≠ '\'') (cs : List Char) :
    cutLongLiteral (List.replicate run '\'' ++ c :: cs) =
      onto (List.replicate run '\'') (cutLongLiteral (c :: cs)) := by
  obtain rfl | rfl | rfl : run = 0 ∨ run = 1 ∨ run = 2 := by omega
  · simp [onto]
  · change cutLongLiteral ('\'' :: c :: cs) = _
    exact cutLongLiteral_cons (by grind)
  · change cutLongLiteral ('\'' :: '\'' :: c :: cs) = _
    rw [cutLongLiteral_cons (by grind), cutLongLiteral_cons (by grind), onto_onto]
    rfl

/-- A text with no more than two apostrophes in a row ends with the last of those behind it. -/
theorem cutLongLiteral_of_longestRun (run : Nat) (h : longestRun '\'' run cs ≤ 2) {d : Char} (hd : d ≠ '\'')
    (rest : List Char) :
    cutLongLiteral (List.replicate run '\'' ++ (cs ++ '\'' :: '\'' :: '\'' :: d :: rest)) =
      (List.replicate run '\'' ++ (cs ++ ['\'', '\'', '\'']), d :: rest) := by
  induction cs generalizing run with
  | nil =>
    rw [longestRun] at h
    rw [List.nil_append, List.nil_append, replicate_append_three, replicate_append_three, List.append_nil,
      cutLongLiteral, cutClosing_run hd h]
    rfl
  | cons c cs ih =>
    rw [longestRun] at h
    split at h
    · subst c
      have hmore := ih (run + 1) h
      rw [List.replicate_succ', List.append_assoc, List.append_assoc] at hmore
      exact hmore
    · have hnext := ih 0 (Nat.le_trans (Nat.le_max_right _ _) h)
      rw [List.replicate_zero, List.nil_append, List.nil_append] at hnext
      rw [List.cons_append, cutLongLiteral_run (Nat.le_trans (Nat.le_max_left _ _) h) ‹_›,
        cutLongLiteral_cons (by grind), hnext]
      simp [onto]

/-! ## What stands between marks -/

theorem withoutSuffix?_append (suffix cs : List Char) : withoutSuffix? suffix (cs ++ suffix) = some cs := by
  simp [withoutSuffix?]

/-- What stands between the marks of a text that is on one line. -/
theorem exists_content {quoting : Quoting} {t : Token} (hlong : quoting = .basic ∨ quoting = .literal)
    (ht : t.text = quoting.mark.toList ++ cs ++ quoting.mark.toList) :
    ∃ place, content quoting t = .ok (place, cs) := by
  simp only [content, ht, List.append_assoc, List.drop_left]
  obtain rfl | rfl := hlong <;> simp only [withoutSuffix?_append] <;> exact ⟨_, rfl⟩

/-- What stands between the marks of a text of many lines, behind the line end that may begin it. -/
theorem exists_content_long {quoting : Quoting} {t : Token} (hlong : quoting = .longBasic ∨ quoting = .longLiteral)
    {first : List Char} (hfirst : withoutLineEnd (first ++ (cs ++ quoting.mark.toList)) = cs ++ quoting.mark.toList)
    (ht : t.text = quoting.mark.toList ++ first ++ cs ++ quoting.mark.toList) :
    ∃ place, content quoting t = .ok (place, cs) := by
  simp only [content, ht, List.append_assoc, List.drop_left]
  obtain rfl | rfl := hlong <;> simp only [hfirst, withoutSuffix?_append] <;> exact ⟨_, rfl⟩

/-! ## Texts in quotes -/

/-- Whether a way to write texts can hold a text. -/
def CanHold : Quoting → List Char → Prop
  | .basic, _ | .longBasic, _ => True
  | .literal, cs => '\'' ∉ cs ∧ ∀ c ∈ cs, Reader.isControl c = false
  | .longLiteral, cs => longestRun '\'' 0 cs ≤ 2 ∧ ∀ c ∈ cs, Reader.isControl c = true → c = '\n'

/-- What a text with escapes begins with. -/
theorem head?_withEscapes (h : (withEscapes isLong 0 cs).head? = some c) :
    c ≠ '\r' ∧ (c = '\n' → '\n' ∈ cs) ∧ (c = '"' → isLong = true) := by
  cases cs with
  | nil => cases h
  | cons d cs =>
    rw [withEscapes] at h
    split at h
    · split at h
      · obtain rfl : d = c := Option.some.inj h
        refine ⟨by simp_all, fun hline => by simp_all, fun _ => ?_⟩
        cases isLong <;> simp_all
      · obtain rfl : '\\' = c := Option.some.inj h
        simp
    split at h
    · obtain ⟨more, rfl, -⟩ := exists_of_escaped? ‹_›
      obtain rfl : '\\' = c := Option.some.inj h
      simp
    · obtain rfl : d = c := Option.some.inj h
      obtain ⟨-, hcontrol⟩ := of_escaped?_eq_none ‹_›
      refine ⟨?_, fun hline => hline ▸ List.mem_cons_self, fun hquote => absurd hquote ‹_›⟩
      rintro rfl
      exact absurd (hcontrol rfl).2 (by decide)

/-- What a text of many lines begins with, before anything that it holds. -/
def lineStart (cs : List Char) : List Char := if cs.contains '\n' then ['\n'] else []

theorem writtenAs_longLiteral (cs : List Char) :
    writtenAs .longLiteral cs = '\'' :: '\'' :: '\'' :: (lineStart cs ++ (cs ++ ['\'', '\'', '\''])) := by
  simp [writtenAs, Quoting.mark, lineStart]

theorem writtenAs_longBasic (cs : List Char) :
    writtenAs .longBasic cs = '"' :: '"' :: '"' :: (lineStart cs ++ (withEscapes true 0 cs ++ ['"', '"', '"'])) := by
  simp [writtenAs, Quoting.mark, lineStart]

theorem cut_quotationMark (h : ∀ ds, cs ≠ '"' :: '"' :: ds) :
    cut '"' cs = (.string .basic, onto ['"'] (cutBasic cs)) := by
  unfold cut
  simp [markKind?, isBlank]

theorem cut_apostrophe (h : ∀ ds, cs ≠ '\'' :: '\'' :: ds) :
    cut '\'' cs = (.string .literal, onto ['\''] (cutLiteral cs)) := by
  unfold cut
  simp [markKind?, isBlank]

/-- What ends a bare word is no mark that goes on with it. -/
theorem ne_of_isBare {d mark : Char} (hd : isBare d = false) (hmark : isBare mark = true) : d ≠ mark := by
  rintro rfl
  exact Bool.false_ne_true (hd.symm.trans hmark)

/-- A text in marks does not begin with two marks if it does not begin with a mark and no mark stands behind it. -/
theorem append_ne_of_head? {d mark : Char} (h : cs.head? ≠ some mark) (hd : d ≠ mark) (rest ds : List Char) :
    cs ++ mark :: d :: rest ≠ mark :: mark :: ds := by
  intro hds
  cases cs with
  | nil => exact hd (List.cons.inj (List.cons.inj hds).2).1
  | cons c cs => exact h (congrArg some (List.cons.inj hds).1)

theorem cutLongLiteral_lineStart (cs ds : List Char) :
    cutLongLiteral (lineStart cs ++ ds) = onto (lineStart cs) (cutLongLiteral ds) := by
  rw [lineStart]
  split <;> rfl

theorem cutLongBasic_lineStart (cs ds : List Char) :
    cutLongBasic (lineStart cs ++ ds) = onto (lineStart cs) (cutLongBasic ds) := by
  rw [lineStart]
  split <;> rfl

theorem isLexeme_literal (hmark : '\'' ∉ cs) (hline : '\n' ∉ cs) :
    IsLexeme (.string .literal) (writtenAs .literal cs) := by
  refine ⟨'\'', cs ++ ['\''], rfl, fun d rest hd => ?_⟩
  have hhead : cs.head? ≠ some '\'' := fun h => hmark (List.mem_of_head? h)
  rw [List.append_assoc, List.singleton_append, cut_apostrophe (append_ne_of_head? hhead (ne_of_isBare hd rfl) rest),
    cutLiteral_of_notMem hmark hline]
  rfl

theorem isLexeme_basic (cs : List Char) : IsLexeme (.string .basic) (writtenAs .basic cs) := by
  refine ⟨'"', withEscapes false 0 cs ++ ['"'], rfl, fun d rest hd => ?_⟩
  have hhead : (withEscapes false 0 cs).head? ≠ some '"' :=
    fun h => Bool.false_ne_true ((head?_withEscapes h).2.2 rfl)
  rw [List.append_assoc, List.singleton_append,
    cut_quotationMark (append_ne_of_head? hhead (ne_of_isBare hd rfl) rest), cutBasic_withEscapes]
  rfl

theorem isLexeme_longLiteral (h : longestRun '\'' 0 cs ≤ 2) :
    IsLexeme (.string .longLiteral) (writtenAs .longLiteral cs) := by
  refine ⟨'\'', _, writtenAs_longLiteral cs, fun d rest hd => ?_⟩
  have hmark : d ≠ '\'' := ne_of_isBare hd rfl
  have hcut := cutLongLiteral_of_longestRun 0 h hmark rest
  rw [List.replicate_zero, List.nil_append, List.nil_append] at hcut
  change (Kind.string .longLiteral, onto ['\'', '\'', '\'']
    (cutLongLiteral (lineStart cs ++ (cs ++ ['\'', '\'', '\'']) ++ d :: rest))) = _
  rw [List.append_assoc, List.append_assoc, cutLongLiteral_lineStart, writtenAs_longLiteral]
  exact congrArg (fun parts => (Kind.string .longLiteral, onto ['\'', '\'', '\''] (onto (lineStart cs) parts))) hcut

theorem isLexeme_longBasic (cs : List Char) : IsLexeme (.string .longBasic) (writtenAs .longBasic cs) := by
  refine ⟨'"', _, writtenAs_longBasic cs, fun d rest hd => ?_⟩
  have hmark : d ≠ '"' := ne_of_isBare hd rfl
  have hcut := cutLongBasic_withEscapes 0 (by omega) hmark cs rest
  rw [List.replicate_zero, List.nil_append, List.nil_append] at hcut
  change (Kind.string .longBasic, onto ['"', '"', '"']
    (cutLongBasic (lineStart cs ++ (withEscapes true 0 cs ++ ['"', '"', '"']) ++ d :: rest))) = _
  rw [List.append_assoc, List.append_assoc, cutLongBasic_lineStart, writtenAs_longBasic]
  exact congrArg (fun parts => (Kind.string .longBasic, onto ['"', '"', '"'] (onto (lineStart cs) parts))) hcut

/-- A text in quotes is cut off as one token. -/
theorem isLexeme_writtenAs {quoting : Quoting} (h : CanHold quoting cs) :
    IsLexeme (.string quoting) (writtenAs quoting cs) := by
  cases quoting with
  | literal => exact isLexeme_literal h.1 fun hline => absurd (h.2 _ hline) (by decide)
  | basic => exact isLexeme_basic cs
  | longLiteral => exact isLexeme_longLiteral h.1
  | longBasic => exact isLexeme_longBasic cs

/-- The line end that begins a text of many lines is taken off again, and nothing else is. -/
theorem withoutLineEnd_lineStart (h : ∀ c, ds.head? = some c → c ≠ '\r' ∧ (c = '\n' → '\n' ∈ cs)) :
    withoutLineEnd (lineStart cs ++ ds) = ds := by
  by_cases hline : '\n' ∈ cs
  · simp [lineStart, hline, withoutLineEnd]
  · have hstart : lineStart cs = [] := by simp [lineStart, hline]
    rw [hstart, List.nil_append]
    unfold withoutLineEnd
    split
    · exact absurd ((h '\n' rfl).2 rfl) hline
    · exact absurd rfl (h '\r' rfl).1
    · rfl

theorem firstOutside?_eq_none {p : Char → Bool} (h : ∀ c ∈ cs, p c = true) (place : Nat) :
    Reader.firstOutside? p place cs = none := by
  induction cs generalizing place with
  | nil => rfl
  | cons c cs ih =>
    rw [List.forall_mem_cons] at h
    rw [Reader.firstOutside?, if_pos h.1, ih h.2]

theorem longLiteralText_eq (h : ∀ c ∈ cs, Reader.isControl c = true → c = '\n') (place : Nat) :
    longLiteralText place cs = .ok cs := by
  induction cs generalizing place with
  | nil => rfl
  | cons c cs ih =>
    rw [List.forall_mem_cons] at h
    have hreturn : c ≠ '\r' := by
      rintro rfl
      exact absurd (h.1 rfl) (by decide)
    have hplain : ¬ (c ≠ '\r' ∧ c ≠ '\n' ∧ Reader.isControl c = true) := fun hc => hc.2.1 (h.1 hc.2.2)
    simp only [longLiteralText, hreturn, false_and, if_false, if_neg hplain, ih h.2]
    rfl

/-- The marks that end a text of many lines are no line end. -/
theorem ne_of_head?_mark {mark : List Char} (hmark : mark.head? = some '"' ∨ mark.head? = some '\'')
    (hc : mark.head? = some c) : c ≠ '\r' ∧ (c = '\n' → '\n' ∈ cs) := by
  rw [hc, Option.some.injEq, Option.some.injEq] at hmark
  obtain rfl | rfl := hmark <;> simp

section

variable {t : Token}

theorem textOf_literal (h : ∀ c ∈ cs, Reader.isControl c = false) (ht : t.text = writtenAs .literal cs) :
    textOf .literal t = .ok (String.ofList cs) := by
  obtain ⟨place, hcontent⟩ : ∃ place, content .literal t = .ok (place, cs) := exists_content (.inr rfl) ht
  have hplain := firstOutside?_eq_none (p := fun c => !Reader.isControl c) (by simpa using h) place
  rw [textOf, hcontent]
  change String.ofList <$> literalText place cs = _
  rw [literalText, hplain]
  rfl

theorem textOf_basic (ht : t.text = writtenAs .basic cs) : textOf .basic t = .ok (String.ofList cs) := by
  obtain ⟨place, hcontent⟩ : ∃ place, content .basic t = .ok (place, withEscapes false 0 cs) :=
    exists_content (.inl rfl) ht
  rw [textOf, hcontent]
  change String.ofList <$> basicText 0 place (withEscapes false 0 cs) = _
  rw [basicText_withEscapes]
  rfl

theorem textOf_longLiteral (h : ∀ c ∈ cs, Reader.isControl c = true → c = '\n')
    (ht : t.text = writtenAs .longLiteral cs) : textOf .longLiteral t = .ok (String.ofList cs) := by
  have hfirst : withoutLineEnd (lineStart cs ++ (cs ++ Quoting.longLiteral.mark.toList)) =
      cs ++ Quoting.longLiteral.mark.toList := by
    refine withoutLineEnd_lineStart fun c hc => ?_
    cases cs with
    | nil => exact ne_of_head?_mark (.inr rfl) hc
    | cons d cs =>
      obtain rfl : d = c := Option.some.inj hc
      refine ⟨?_, fun hline => hline ▸ List.mem_cons_self⟩
      rintro rfl
      exact absurd (h _ List.mem_cons_self rfl) (by decide)
  obtain ⟨place, hcontent⟩ := exists_content_long (.inr rfl) hfirst ht
  rw [textOf, hcontent]
  change String.ofList <$> longLiteralText place cs = _
  rw [longLiteralText_eq h]
  rfl

theorem textOf_longBasic (ht : t.text = writtenAs .longBasic cs) : textOf .longBasic t = .ok (String.ofList cs) := by
  have hfirst : withoutLineEnd (lineStart cs ++ (withEscapes true 0 cs ++ Quoting.longBasic.mark.toList)) =
      withEscapes true 0 cs ++ Quoting.longBasic.mark.toList := by
    refine withoutLineEnd_lineStart fun c hc => ?_
    rcases hcs : withEscapes true 0 cs with _ | ⟨d, more⟩
    · rw [hcs] at hc
      exact ne_of_head?_mark (.inl rfl) hc
    · rw [hcs] at hc
      have hhead : (withEscapes true 0 cs).head? = some c := by rw [hcs]; exact hc
      obtain ⟨hreturn, hline, -⟩ := head?_withEscapes hhead
      exact ⟨hreturn, hline⟩
  obtain ⟨place, hcontent⟩ := exists_content_long (.inl rfl) hfirst ht
  rw [textOf, hcontent]
  change String.ofList <$> longBasicText 0 place (withEscapes true 0 cs) = _
  rw [longBasicText_withEscapes]
  rfl

/-- **A text in quotes is read back.** -/
theorem textOf_writtenAs {quoting : Quoting} (h : CanHold quoting cs) (ht : t.text = writtenAs quoting cs) :
    textOf quoting t = .ok (String.ofList cs) := by
  cases quoting with
  | literal => exact textOf_literal h.2 ht
  | basic => exact textOf_basic ht
  | longLiteral => exact textOf_longLiteral h.2 ht
  | longBasic => exact textOf_longBasic ht

end

/-! ## The way that is chosen -/

theorem isControl_of_hasControl_eq_false (h : (Content.ofText cs).hasControl = false) :
    ∀ c ∈ cs, Reader.isControl c = true → c = '\n' := by
  simpa [Content.ofText, needsEscape] using h

theorem isControl_eq_false (hcontrol : (Content.ofText cs).hasControl = false)
    (hline : (Content.ofText cs).hasLineEnd = false) : ∀ c ∈ cs, Reader.isControl c = false := by
  have hne : '\n' ∉ cs := by simpa [Content.ofText] using hline
  intro c hc
  rw [Bool.eq_false_iff]
  intro h
  exact hne (isControl_of_hasControl_eq_false hcontrol c hc h ▸ hc)

/-- The way in which a text is written can hold it. -/
theorem canHold_quoting (cs : List Char) : CanHold (Content.ofText cs).quoting cs := by
  rw [Content.quoting]
  split
  · trivial
  split
  · rename_i hliteral
    simp only [Bool.and_eq_true, Bool.not_eq_true', beq_iff_eq] at hliteral
    exact ⟨notMem_of_longestRun hliteral.1.2, isControl_eq_false hliteral.1.1 hliteral.2⟩
  split
  · trivial
  split
  · rename_i hliteral
    simp only [Bool.and_eq_true, Bool.not_eq_true', decide_eq_true_eq] at hliteral
    exact ⟨hliteral.2, isControl_of_hasControl_eq_false hliteral.1⟩
  split <;> trivial

/-- The way in which a name is written can hold it, and it is on one line. -/
theorem canHold_nameQuoting (cs : List Char) :
    ((Content.ofText cs).nameQuoting = .basic ∨ (Content.ofText cs).nameQuoting = .literal) ∧
      CanHold (Content.ofText cs).nameQuoting cs := by
  rw [Content.nameQuoting]
  split
  · exact ⟨.inl rfl, trivial⟩
  split
  · exact ⟨.inl rfl, trivial⟩
  split
  · rename_i hcontrol _ hliteral
    simp only [Bool.or_eq_true, not_or, Bool.not_eq_true] at hcontrol
    exact ⟨.inr rfl, notMem_of_longestRun (beq_iff_eq.mp hliteral), isControl_eq_false hcontrol.1 hcontrol.2⟩
  · exact ⟨.inl rfl, trivial⟩

end Scratchpad.Toml
