import Scratchpad.Toml.Printer

/-!
# Escapes read back

A text that is written with escapes is a single token up to the mark that ends it, and it is read as the text that
it was made of.

## Main statements

* `exists_of_escaped?`: what an escape is made of, and which character it stands for.
* `cutBasic_withEscapes`, `cutLongBasic_withEscapes`: where a text with escapes ends.
* `basicText_withEscapes`, `longBasicText_withEscapes`: what a text with escapes is read as.
-/

namespace Scratchpad.Toml

variable {c : Char} {cs ds e : List Char} {isLong : Bool}

theorem onto_onto (front more : List Char) (parts : List Char × List Char) :
    onto front (onto more parts) = onto (front ++ more) parts := by
  simp [onto]

/-! ## Escapes -/

theorem capitalHex_spec : ∀ n < 128, (n < 0x20 ∨ n = 0x7F) → (capitalHex n).length = 4 ∧
    (capitalHex n).all Char.isAlphanum = true ∧ ((capitalHex n).filterMap hexValue?).length = 4 ∧
    ((capitalHex n).filterMap hexValue?).foldl (fun n d => n * 16 + d) 0 = n := by
  decide

theorem toNat_of_isControl (h : Reader.isControl c = true) : c.toNat < 0x20 ∨ c.toNat = 0x7F := by
  simp only [Reader.isControl, Bool.or_eq_true, Bool.and_eq_true, decide_eq_true_eq, beq_iff_eq] at h
  exact h.imp_left And.left

/-- An escape by number stands for the control with that number. -/
theorem escape_capitalHex (h : Reader.isControl c = true) (place : Nat) (cs : List Char) :
    escape place ('u' :: (capitalHex c.toNat ++ cs)) = .ok (c, 5) := by
  have hcontrol := toNat_of_isControl h
  obtain ⟨hlength, -, hdigits, hvalue⟩ := capitalHex_spec c.toNat (by omega) hcontrol
  have htake : (capitalHex c.toNat ++ cs).take 4 = capitalHex c.toNat := List.take_left' hlength
  have hvalid : c.toNat.isValidChar := c.valid
  simp only [escape, codeEscape, htake, hdigits, hvalue, hvalid, Nat.lt_irrefl, if_false, if_true, Char.ofNat_toNat]

/-- An escape is a backslash in front of another one or of letters and digits, which tell the character. -/
theorem exists_of_escaped? (h : escaped? isLong c = some e) : ∃ more, e = '\\' :: more ∧
    (∀ place cs, escape place (more ++ cs) = .ok (c, more.length)) ∧
    (more = ['\\'] ∨ more.all Char.isAlphanum = true ∧ more ≠ []) := by
  have hletter {letter : Char} (he : ['\\', letter] = e)
      (hescape : ∀ place cs, escape place (letter :: cs) = .ok (c, 1))
      (hplain : letter = '\\' ∨ letter.isAlphanum = true) : ∃ more, e = '\\' :: more ∧
      (∀ place cs, escape place (more ++ cs) = .ok (c, more.length)) ∧
      (more = ['\\'] ∨ more.all Char.isAlphanum = true ∧ more ≠ []) :=
    ⟨[letter], he.symm, hescape, hplain.imp (fun h => by rw [h]) fun h => ⟨by simp [h], by simp⟩⟩
  rw [escaped?] at h
  split at h
  · subst c; exact hletter (Option.some.inj h) (fun _ _ => rfl) (.inr rfl)
  split at h
  · subst c; exact hletter (Option.some.inj h) (fun _ _ => rfl) (.inr rfl)
  split at h
  · subst c
    cases isLong with
    | true => cases h
    | false => exact hletter (Option.some.inj h) (fun _ _ => rfl) (.inr rfl)
  split at h
  · subst c; exact hletter (Option.some.inj h) (fun _ _ => rfl) (.inr rfl)
  split at h
  · subst c; exact hletter (Option.some.inj h) (fun _ _ => rfl) (.inr rfl)
  split at h
  · subst c; exact hletter (Option.some.inj h) (fun _ _ => rfl) (.inl rfl)
  split at h
  · rename_i hcontrol
    obtain ⟨hlength, halphanum, -⟩ := capitalHex_spec c.toNat (by have := toNat_of_isControl hcontrol; omega)
      (toNat_of_isControl hcontrol)
    refine ⟨'u' :: capitalHex c.toNat, (Option.some.inj h).symm, fun place cs => ?_, .inr ⟨?_, by simp⟩⟩
    · rw [List.length_cons, hlength]
      exact escape_capitalHex hcontrol place cs
    · rw [List.all_cons, halphanum]
      rfl
  · cases h

/-- A character without an escape is no backslash, and no control but the end of a line in a text of many lines. -/
theorem of_escaped?_eq_none (h : escaped? isLong c = none) :
    c ≠ '\\' ∧ (Reader.isControl c = true → isLong = true ∧ c = '\n') := by
  rw [escaped?] at h
  repeat' split at h
  all_goals simp_all

/-! ## Where a text with escapes ends -/

/-- What looks for the end of a text goes past everything but marks and line ends, and past a backslash together with
the backslash behind it. -/
structure PassesEscapes (cutter : List Char → List Char × List Char) : Prop where
  plain {c : Char} (cs : List Char) : c ≠ '\\' → c ≠ '"' → c ≠ '\n' → cutter (c :: cs) = onto [c] (cutter cs)
  pair (cs : List Char) : cutter ('\\' :: '\\' :: cs) = onto ['\\', '\\'] (cutter cs)
  backslash {d : Char} (cs : List Char) :
    d ≠ '\\' → d ≠ '"' → cutter ('\\' :: d :: cs) = onto ['\\'] (cutter (d :: cs))

theorem passesEscapes_cutBasic : PassesEscapes cutBasic where
  plain cs hbackslash hquote hline := by
    rw [cutBasic.eq_def]
    split <;> grind
  pair cs := rfl
  backslash cs hbackslash hquote := by
    rw [cutBasic.eq_def]
    split <;> grind

theorem cutLongBasic_cons (hbackslash : c ≠ '\\') (hquote : c ≠ '"') (cs : List Char) :
    cutLongBasic (c :: cs) = onto [c] (cutLongBasic cs) := by
  rw [cutLongBasic.eq_def]
  split <;> grind

theorem passesEscapes_cutLongBasic : PassesEscapes cutLongBasic where
  plain cs hbackslash hquote _ := cutLongBasic_cons hbackslash hquote cs
  pair cs := rfl
  backslash cs hbackslash hquote := by
    rw [cutLongBasic.eq_def]
    split <;> grind

/-- Letters and digits are neither marks nor blanks. -/
theorem ne_of_isAlphanum (h : c.isAlphanum = true) (d : Char) (hd : d.isAlphanum = false) : c ≠ d := by
  rintro rfl
  exact Bool.false_ne_true (hd.symm.trans h)

namespace PassesEscapes

variable {cutter : List Char → List Char × List Char}

theorem alphanum (hcutter : PassesEscapes cutter) (h : ds.all Char.isAlphanum = true) (cs : List Char) :
    cutter (ds ++ cs) = onto ds (cutter cs) := by
  induction ds with
  | nil => rfl
  | cons d ds ih =>
    rw [List.all_cons, Bool.and_eq_true] at h
    have hne := ne_of_isAlphanum h.1
    rw [List.cons_append, hcutter.plain _ (hne _ rfl) (hne _ rfl) (hne _ rfl), ih h.2, onto_onto, List.singleton_append]

/-- No text ends within an escape. -/
theorem escaped (hcutter : PassesEscapes cutter) (h : escaped? isLong c = some e) (cs : List Char) :
    cutter (e ++ cs) = onto e (cutter cs) := by
  obtain ⟨more, rfl, -, rfl | ⟨hmore, hne⟩⟩ := exists_of_escaped? h
  · exact hcutter.pair cs
  · obtain ⟨d, ds, rfl⟩ := List.exists_cons_of_ne_nil hne
    have hd := ne_of_isAlphanum (List.all_eq_true.mp hmore d List.mem_cons_self)
    have hrest := hcutter.alphanum hmore cs
    rw [List.cons_append] at hrest
    rw [List.cons_append, List.cons_append, hcutter.backslash _ (hd _ rfl) (hd _ rfl), hrest, onto_onto,
      List.singleton_append]

end PassesEscapes

/-- A text with escapes ends at the first quotation mark that has no escape. -/
theorem cutBasic_withEscapes (cs rest : List Char) :
    cutBasic (withEscapes false 0 cs ++ '"' :: rest) = (withEscapes false 0 cs ++ ['"'], rest) := by
  induction cs with
  | nil => rfl
  | cons c cs ih =>
    rw [withEscapes]
    split
    · subst c
      rw [if_neg (by decide), List.cons_append, List.cons_append, cutBasic, ih]
      rfl
    · split
      · rw [List.append_assoc, passesEscapes_cutBasic.escaped ‹_›, ih]
        simp [onto]
      · obtain ⟨hbackslash, hcontrol⟩ := of_escaped?_eq_none ‹_›
        have hline : c ≠ '\n' := by
          rintro rfl
          exact absurd (hcontrol rfl).1 Bool.false_ne_true
        rw [List.cons_append, passesEscapes_cutBasic.plain _ hbackslash ‹_› hline, ih]
        simp [onto]

/-- Up to two marks in front of something else do not end a text of many lines. -/
theorem cutLongBasic_run {run : Nat} (hrun : run ≤ 2) (hquote : cs.head? ≠ some '"') :
    cutLongBasic (List.replicate run '"' ++ cs) = onto (List.replicate run '"') (cutLongBasic cs) := by
  have hone (ds : List Char) (h : ¬ ∃ es, ds = '"' :: '"' :: es) :
      cutLongBasic ('"' :: ds) = onto ['"'] (cutLongBasic ds) := by
    rw [cutLongBasic.eq_def]
    split <;> grind
  have hcs : ∀ d ds, cs = d :: ds → d ≠ '"' := by
    rintro d ds rfl rfl
    exact hquote rfl
  obtain rfl | rfl | rfl : run = 0 ∨ run = 1 ∨ run = 2 := by omega
  · simp [onto]
  · exact hone cs (by grind)
  · change cutLongBasic ('"' :: '"' :: cs) = _
    rw [hone _ (by grind), hone _ (by grind), onto_onto]
    rfl

/-- Up to two more marks belong to a text of many lines. -/
theorem cutClosing_run {mark d : Char} (hd : d ≠ mark) {run : Nat} (hrun : run ≤ 2) (rest : List Char) :
    cutClosing mark (List.replicate run mark ++ d :: rest) = (List.replicate run mark, d :: rest) := by
  obtain rfl | rfl | rfl : run = 0 ∨ run = 1 ∨ run = 2 := by omega
  · cases rest <;> simp [cutClosing, hd]
  · simp [cutClosing, hd]
  · simp [cutClosing]

/-- Marks that stand behind marks may as well stand before them. -/
theorem replicate_append_three (mark : Char) (run : Nat) (ds : List Char) :
    List.replicate run mark ++ mark :: mark :: mark :: ds =
      mark :: mark :: mark :: (List.replicate run mark ++ ds) := by
  induction run with
  | zero => rfl
  | succ run ih => rw [List.replicate_succ, List.cons_append, ih, List.cons_append]

/-- A text of many lines ends with the last of the marks behind it, so that up to two marks before belong to it. -/
theorem cutLongBasic_withEscapes (run : Nat) (hrun : run ≤ 2) {d : Char} (hd : d ≠ '"') (cs rest : List Char) :
    cutLongBasic (List.replicate run '"' ++ (withEscapes true run cs ++ '"' :: '"' :: '"' :: d :: rest)) =
      (List.replicate run '"' ++ (withEscapes true run cs ++ ['"', '"', '"']), d :: rest) := by
  induction cs generalizing run with
  | nil =>
    rw [withEscapes, List.nil_append, List.nil_append, replicate_append_three,
      replicate_append_three, List.append_nil, cutLongBasic,
      cutClosing_run hd hrun]
    rfl
  | cons c cs ih =>
    have hnext := ih 0 (by omega)
    rw [List.replicate_zero, List.nil_append, List.nil_append] at hnext
    rw [withEscapes]
    split
    · subst c
      rw [if_pos rfl]
      split
      · have hmore := ih (run + 1) (by omega)
        rw [List.replicate_succ', List.append_assoc, List.append_assoc] at hmore
        exact hmore
      · rw [List.cons_append, List.cons_append, cutLongBasic_run hrun (by simp), cutLongBasic, hnext]
        simp [onto]
    · split
      · obtain ⟨more, rfl, -, -⟩ := exists_of_escaped? ‹_›
        rw [List.append_assoc, cutLongBasic_run hrun (by simp), passesEscapes_cutLongBasic.escaped ‹_›, hnext]
        simp [onto]
      · obtain ⟨hbackslash, -⟩ := of_escaped?_eq_none ‹_›
        rw [List.cons_append, cutLongBasic_run hrun (by simpa), cutLongBasic_cons hbackslash ‹_›, hnext]
        simp [onto]

/-! ## What a text with escapes is read as -/

/-- What has been taken for an escape is passed over. -/
theorem basicText_skip (h : ∀ place, basicText 0 place cs = .ok ds) (more : List Char) (place : Nat) :
    basicText more.length place (more ++ cs) = .ok ds := by
  induction more generalizing place with
  | nil => exact h place
  | cons c more ih => exact ih (place + c.utf8Size)

theorem basicText_cons (h : ∀ place, basicText 0 place cs = .ok ds) (hbackslash : c ≠ '\\')
    (hcontrol : Reader.isControl c = false) (place : Nat) : basicText 0 place (c :: cs) = .ok (c :: ds) := by
  simp only [basicText, if_neg hbackslash, hcontrol, Bool.false_eq_true, if_false, h]
  rfl

theorem basicText_escape (more : List Char) (h : ∀ place, basicText 0 place cs = .ok ds)
    (hescape : ∀ place cs, escape place (more ++ cs) = .ok (c, more.length)) (place : Nat) :
    basicText 0 place ('\\' :: (more ++ cs)) = .ok (c :: ds) := by
  simp only [basicText, if_true, hescape]
  change (do return c :: (← basicText more.length (place + 1) (more ++ cs))) = _
  rw [basicText_skip h]
  rfl

theorem basicText_withEscapes (cs : List Char) (place : Nat) :
    basicText 0 place (withEscapes false 0 cs) = .ok cs := by
  induction cs generalizing place with
  | nil => rfl
  | cons c cs ih =>
    rw [withEscapes]
    split
    · subst c
      exact basicText_escape ['"'] ih (fun _ _ => rfl) place
    · split
      · obtain ⟨more, rfl, hescape, -⟩ := exists_of_escaped? ‹_›
        exact basicText_escape more ih hescape place
      · obtain ⟨hbackslash, hcontrol⟩ := of_escaped?_eq_none ‹_›
        refine basicText_cons ih hbackslash (Bool.eq_false_iff.mpr fun h => ?_) place
        exact Bool.false_ne_true (hcontrol h).1

theorem longBasicText_skip (h : ∀ place, longBasicText 0 place cs = .ok ds) (more : List Char) (place : Nat) :
    longBasicText more.length place (more ++ cs) = .ok ds := by
  induction more generalizing place with
  | nil => exact h place
  | cons c more ih => exact ih (place + c.utf8Size)

theorem longBasicText_cons (h : ∀ place, longBasicText 0 place cs = .ok ds) (hbackslash : c ≠ '\\')
    (hcontrol : Reader.isControl c = true → c = '\n') (place : Nat) :
    longBasicText 0 place (c :: cs) = .ok (c :: ds) := by
  have hreturn : c ≠ '\r' := by
    rintro rfl
    exact absurd (hcontrol rfl) (by decide)
  have hplain : ¬ (c ≠ '\r' ∧ c ≠ '\n' ∧ Reader.isControl c = true) := fun hc => hc.2.1 (hcontrol hc.2.2)
  simp only [longBasicText, if_neg hbackslash, hreturn, false_and, if_false, if_neg hplain, h]
  rfl

theorem longBasicText_escape (more : List Char) (h : ∀ place, longBasicText 0 place cs = .ok ds)
    (hescape : ∀ place cs, escape place (more ++ cs) = .ok (c, more.length))
    (hmore : (more ++ cs).head?.any (fun d => isBlank d || d == '\n' || d == '\r') = false) (place : Nat) :
    longBasicText 0 place ('\\' :: (more ++ cs)) = .ok (c :: ds) := by
  simp only [longBasicText, if_true, hmore, Bool.false_eq_true, if_false, hescape]
  change (do return c :: (← longBasicText more.length (place + 1) (more ++ cs))) = _
  rw [longBasicText_skip h]
  rfl

theorem longBasicText_withEscapes (run : Nat) (cs : List Char) (place : Nat) :
    longBasicText 0 place (withEscapes true run cs) = .ok cs := by
  induction cs generalizing run place with
  | nil => rfl
  | cons c cs ih =>
    rw [withEscapes]
    split
    · subst c
      rw [if_pos rfl]
      split
      · exact longBasicText_cons (c := '"') (ih _) (by decide) (by decide) place
      · exact longBasicText_escape ['"'] (ih 0) (fun _ _ => rfl) rfl place
    · split
      · obtain ⟨more, rfl, hescape, hmore⟩ := exists_of_escaped? ‹_›
        refine longBasicText_escape more (ih 0) hescape ?_ place
        obtain rfl | ⟨halphanum, hne⟩ := hmore
        · rfl
        · obtain ⟨d, ds, rfl⟩ := List.exists_cons_of_ne_nil hne
          have hd := ne_of_isAlphanum (List.all_eq_true.mp halphanum d List.mem_cons_self)
          simp [isBlank, hd]
      · obtain ⟨hbackslash, hcontrol⟩ := of_escaped?_eq_none ‹_›
        exact longBasicText_cons (ih 0) hbackslash (fun h => (hcontrol h).2) place

end Scratchpad.Toml
