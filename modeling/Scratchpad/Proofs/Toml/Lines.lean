import Scratchpad.Proofs.Toml.Scalars
import Scratchpad.Toml.Grammar

/-!
# Lines of a document

A document of headings and settings, each on a line of its own with a single name and a scalar, is cut into the tokens
that its lines are made of and is read line by line.

## Main definitions

* `Lexed`: the kinds and the texts of the tokens of a text.
* `Reader.Takes`: what a reader delivers from tokens of such kinds and texts, wherever they stand.
* `Line`, `Says`: what a line says, and what the lines of a text say.

## Main statements

* `Says.statements`: what the lines of a text say is what is read from it.
-/

namespace Scratchpad.Toml

/-! ## Tokens of a text -/

/-- A kind of token, and a text of this kind. -/
abbrev Lexeme := Kind × List Char

/-- The kind and the text of a token, without its place. -/
def Token.lexeme (t : Token) : Lexeme := (t.kind, t.text)

/-- The kinds and the texts of the tokens of a text. -/
inductive Lexed : List Lexeme → List Char → Prop
  | finish : Lexed [(.finish, [])] []
  | cut {kind : Kind} {c : Char} {cs more rest : List Char} {ls : List Lexeme} :
    cut c cs = (kind, c :: more, rest) → Lexed ls rest → Lexed ((kind, c :: more) :: ls) (c :: cs)

namespace Lexed

variable {ls : List Lexeme} {cs : List Char}

theorem map_tokensFrom (h : Lexed ls cs) {steps : Nat} (hsteps : cs.length ≤ steps) (start : Nat) :
    (tokensFrom steps start cs).map Token.lexeme = ls := by
  induction h generalizing steps start with
  | finish => cases steps <;> rfl
  | @cut kind c cs more rest ls hcut hrest ih =>
    obtain ⟨steps, rfl⟩ := Nat.exists_eq_succ_of_ne_zero (Nat.ne_zero_of_lt hsteps)
    have happend := cut_append c cs
    rw [hcut] at happend
    have hlength := congrArg List.length happend
    simp only [List.length_append, List.length_cons] at hlength hsteps
    rw [tokensFrom, hcut, List.map_cons, ih (by omega)]
    rfl

theorem ne_nil (h : Lexed ls cs) : ls ≠ [] := by cases h <;> exact List.cons_ne_nil _ _

/-- A mark is a token of its own. -/
theorem mark (h : Lexed ls cs) {c : Char} {kind : Kind} (hkind : markKind? c = some kind) :
    Lexed ((kind, [c]) :: ls) (c :: cs) :=
  .cut (by simp only [Toml.cut, hkind]) h

/-- A blank in front of something else is a token of its own. -/
theorem blank {c : Char} (h : Lexed ls (c :: cs)) (hc : isBlank c = false) :
    Lexed ((.blank, [' ']) :: ls) (' ' :: c :: cs) := by
  have hwhile : cutWhile isBlank (c :: cs) = ([], c :: cs) := by simp [cutWhile, hc]
  have hspace : isBlank ' ' = true := rfl
  exact .cut (by simp [Toml.cut, markKind?, hspace, hwhile, onto]) h

/-- What is cut off as one token is one in front of what cannot stand in a bare word. -/
theorem lexeme {kind : Kind} {text : List Char} {d : Char} (h : Lexed ls (d :: cs)) (htext : IsLexeme kind text)
    (hd : isBare d = false) : Lexed ((kind, text) :: ls) (text ++ d :: cs) := by
  obtain ⟨c, more, rfl, hcut⟩ := htext
  exact .cut (hcut d cs hd) h

/-- A blank in front of a token that is no blank is a token of its own. -/
theorem blank_lexeme {kind : Kind} {text : List Char} (h : Lexed ls (text ++ cs)) (htext : IsLexeme kind text)
    (hkind : kind ≠ .blank) : Lexed ((.blank, [' ']) :: ls) (' ' :: (text ++ cs)) := by
  obtain ⟨c, more, rfl, hcut⟩ := htext
  refine h.blank (Bool.eq_false_iff.mpr fun hc => hkind ?_)
  have hmark : markKind? c = none := by
    rw [isBlank, Bool.or_eq_true, beq_iff_eq, beq_iff_eq] at hc
    obtain rfl | rfl := hc <;> rfl
  have hblank := hcut '\n' [] rfl
  simp only [Toml.cut, hmark, hc, if_true] at hblank
  exact (congrArg Prod.fst hblank).symm

end Lexed

/-! ## Readers at work -/

namespace Reader

variable {α β : Type} {r : Reader α} {f : α → Reader β} {p : α → Prop} {q : β → Prop} {l l' : Lexeme}
  {ls ls' ls'' : List Lexeme}

/-- From tokens of such kinds and texts a reader delivers something and goes on to other tokens. -/
def Takes (r : Reader α) (ls : List Lexeme) (p : α → Prop) (ls' : List Lexeme) : Prop :=
  ∀ ts : List Token, ts.map Token.lexeme = ls →
    ∃ a ts', r.run ts = .ok (a, ts') ∧ p a ∧ ts'.map Token.lexeme = ls'

theorem takes_pure {a : α} (h : p a) (ls : List Lexeme) : Takes (pure a) ls p ls := fun ts hts => ⟨a, ts, rfl, h, hts⟩

theorem Takes.bind (hr : Takes r ls p ls') (hf : ∀ a, p a → Takes (f a) ls' q ls'') : Takes (r >>= f) ls q ls'' := by
  intro ts hts
  obtain ⟨a, ts', hr, ha, hts'⟩ := hr ts hts
  obtain ⟨b, ts'', hf, hb, hts''⟩ := hf a ha ts' hts'
  exact ⟨b, ts'', by rw [StateT.run_bind, hr]; exact hf, hb, hts''⟩

theorem takes_peek (l : Lexeme) (ls : List Lexeme) : Takes peek (l :: ls) (·.lexeme = l) (l :: ls) := by
  intro ts hts
  obtain ⟨t, ts, rfl, ht, -⟩ := List.map_eq_cons_iff.mp hts
  exact ⟨t, t :: ts, rfl, ht, hts⟩

theorem takes_advance (l l' : Lexeme) (ls : List Lexeme) :
    Takes advance (l :: l' :: ls) (fun _ => True) (l' :: ls) := by
  intro ts hts
  obtain ⟨t, ts, rfl, -, hts⟩ := List.map_eq_cons_iff.mp hts
  obtain ⟨t', ts, rfl, ht', hts⟩ := List.map_eq_cons_iff.mp hts
  exact ⟨(), t' :: ts, rfl, trivial, by rw [List.map_cons, ht', hts]⟩

theorem takes_remaining (ls : List Lexeme) : Takes remaining ls (· = ls.length + 1) ls := by
  rintro ts rfl
  exact ⟨ts.length + 1, ts, rfl, by rw [List.length_map], rfl⟩

/-- What is done next depends on the kind of the next token. -/
theorem takes_peek_bind {f : Token → Reader β} {kind : Kind} {text : List Char}
    (hf : ∀ t : Token, t.kind = kind → t.text = text → Takes (f t) ((kind, text) :: ls) q ls') :
    Takes (peek >>= f) ((kind, text) :: ls) q ls' :=
  (takes_peek _ ls).bind fun t ht => hf t (congrArg Prod.fst ht) (congrArg Prod.snd ht)

theorem takes_advance_bind {f : Unit → Reader β} (hf : Takes (f ()) (l' :: ls) q ls') :
    Takes (advance >>= f) (l :: l' :: ls) q ls' :=
  (takes_advance l l' ls).bind fun _ _ => hf

/-! ## Keys -/

/-- A key with a single name ends in front of anything but a blank or a dot. -/
theorem takes_names_end {kind : Kind} (hblank : kind ≠ .blank) (hdot : kind ≠ .dot) (steps : Nat) (text : List Char) :
    Takes (names (steps + 1) false) ((kind, text) :: ls) (· = ([], true)) ((kind, text) :: ls) := by
  rw [names]
  refine takes_peek_bind fun t hkind _ => ?_
  rw [hkind]
  split
  · contradiction
  · contradiction
  · exact takes_pure (p := (· = ([], true))) rfl _

/-- Blanks behind a name belong to the key. -/
theorem takes_names_blank {steps : Nat} {p : List Token × Bool → Prop} (h : Takes (names steps false) (l :: ls) p ls')
    (text : List Char) : Takes (names (steps + 1) false) ((.blank, text) :: l :: ls) p ls' := by
  rw [names]
  refine takes_peek_bind fun t hkind _ => ?_
  rw [hkind]
  exact takes_advance_bind h

theorem takes_names {steps : Nat} {kind : Kind} {text : List Char} (hkind : kind.IsScalar)
    (h : Takes (names steps false) (l :: ls) (· = ([], true)) ls') :
    Takes (names (steps + 1) true) ((kind, text) :: l :: ls)
      (fun key => ∃ t : Token, t.kind = kind ∧ t.text = text ∧ key = ([t], true)) ls' := by
  rw [names]
  refine takes_peek_bind fun t ht htext => ?_
  have hname : isName t = true := by
    rw [isName, ht]
    obtain rfl | ⟨quoting, rfl⟩ := hkind <;> rfl
  rw [if_pos hname]
  refine takes_advance_bind (h.bind ?_)
  rintro _ rfl
  exact takes_pure ⟨t, ht, htext, rfl⟩ _

/-- The key of a heading ends with the bracket behind it. -/
theorem takes_key_heading {kind : Kind} {text : List Char} (hkind : kind.IsScalar)
    (close : List Char) :
    Takes key ((kind, text) :: (.closeBracket, close) :: ls)
      (fun key => ∃ t : Token, t.kind = kind ∧ t.text = text ∧ key = ([t], true)) ((.closeBracket, close) :: ls) := by
  refine (takes_remaining _).bind ?_
  rintro _ rfl
  exact takes_names hkind (takes_names_end (by decide) (by decide) _ _)

/-- The key of a setting ends with the blank behind it. -/
theorem takes_key_setting {kind : Kind} {text : List Char} (hkind : kind.IsScalar)
    (space equals : List Char) :
    Takes key ((kind, text) :: (.blank, space) :: (.equals, equals) :: ls)
      (fun key => ∃ t : Token, t.kind = kind ∧ t.text = text ∧ key = ([t], true)) ((.equals, equals) :: ls) := by
  refine (takes_remaining _).bind ?_
  rintro _ rfl
  exact takes_names hkind (takes_names_blank (takes_names_end (by decide) (by decide) _ _) _)

/-! ## Values -/

theorem scalarTail_of_lineEnd {t u : Token} (ht : t.kind = .bare) (hu : u.kind = .lineEnd) (ts : List Token) :
    scalarTail (t :: u :: ts) = (t.text, u :: ts) := by
  have hend : scalarTail (u :: ts) = ([], u :: ts) := by
    cases ts with
    | nil => rfl
    | cons v ts => simp [scalarTail, hu]
  simp [scalarTail, ht, hend]

/-- A scalar is read up to the end of its line. -/
theorem takes_scalar {kind : Kind} {text : List Char} (hkind : kind.IsScalar)
    (ending : List Char) :
    Takes scalar ((kind, text) :: (.lineEnd, ending) :: ls)
      (fun e => ∃ t : Token, t.kind = kind ∧ t.text = text ∧ e = .scalar t) ((.lineEnd, ending) :: ls) := by
  obtain rfl | ⟨quoting, rfl⟩ := hkind
  · refine takes_peek_bind fun t ht _ => ?_
    rw [ht]
    intro ts hts
    obtain ⟨u, ts, rfl, hu, hts⟩ := List.map_eq_cons_iff.mp hts
    obtain ⟨v, ts, rfl, hv, hts⟩ := List.map_eq_cons_iff.mp hts
    have htail := scalarTail_of_lineEnd (congrArg Prod.fst hu) (congrArg Prod.fst hv) ts
    have htext : u.text = text := congrArg Prod.snd hu
    refine ⟨.scalar ⟨.bare, t.start, u.text⟩, v :: ts, ?_, ⟨⟨.bare, t.start, u.text⟩, rfl, htext, rfl⟩, ?_⟩
    · change Except.ok (Expression.scalar ⟨.bare, t.start, (scalarTail (u :: v :: ts)).1⟩,
        (scalarTail (u :: v :: ts)).2) = _
      rw [htail]
    · rw [List.map_cons, hv, hts]
  · refine takes_peek_bind fun t ht htext => ?_
    rw [ht]
    exact takes_advance_bind (takes_pure ⟨t, ht, htext, rfl⟩ _)

theorem takes_value {kind : Kind} {text : List Char} (hkind : kind.IsScalar)
    (steps depth : Nat) (ending : List Char) :
    Takes (value (steps + 1) depth) ((kind, text) :: (.lineEnd, ending) :: ls)
      (fun e => ∃ t : Token, t.kind = kind ∧ t.text = text ∧ e = .scalar t) ((.lineEnd, ending) :: ls) := by
  rw [value]
  refine takes_peek_bind fun t ht _ => ?_
  rw [ht]
  have hscalar : Takes scalar ((kind, text) :: (.lineEnd, ending) :: ls) _ _ := takes_scalar hkind ending
  obtain rfl | ⟨quoting, rfl⟩ := hkind <;> exact hscalar

theorem takes_valueOrGap {kind : Kind} {text : List Char} (hkind : kind.IsScalar)
    (ending : List Char) :
    Takes valueOrGap ((kind, text) :: (.lineEnd, ending) :: ls)
      (fun v => ∃ t : Token, t.kind = kind ∧ t.text = text ∧ v = (.scalar t, true)) ((.lineEnd, ending) :: ls) := by
  refine takes_peek_bind fun t ht _ => ?_
  have hread : Takes (do return (← value (4 * (← remaining)) deepest, true)) ((kind, text) :: (.lineEnd, ending) :: ls)
      (fun v => ∃ t : Token, t.kind = kind ∧ t.text = text ∧ v = (.scalar t, true)) ((.lineEnd, ending) :: ls) := by
    refine (takes_remaining _).bind ?_
    rintro _ rfl
    refine (takes_value hkind _ _ ending).bind ?_
    rintro _ ⟨t, ht, htext, rfl⟩
    exact takes_pure ⟨t, ht, htext, rfl⟩ _
  rw [ht]
  obtain rfl | ⟨quoting, rfl⟩ := hkind <;> exact hread

/-! ## Lines -/

theorem takes_passBlank_of_ne {kind : Kind} (h : kind ≠ .blank) (text : List Char) :
    Takes passBlank ((kind, text) :: ls) (fun _ => True) ((kind, text) :: ls) := by
  refine takes_peek_bind fun t ht _ => ?_
  rw [if_neg (by rwa [ht])]
  exact takes_pure trivial _

theorem takes_passBlank (text : List Char) : Takes passBlank ((.blank, text) :: l :: ls) (fun _ => True) (l :: ls) := by
  refine takes_peek_bind fun t ht _ => ?_
  rw [if_pos ht]
  exact takes_advance _ l ls

theorem takes_passSpace : Takes passSpace ((.lineEnd, ['\n']) :: l :: ls) (fun _ => True) (l :: ls) := by
  refine takes_peek_bind fun t ht htext => ?_
  simp only [ht, htext]
  rw [if_neg (by decide)]
  exact takes_advance _ l ls

theorem takes_passLineEnd : Takes passLineEnd ((.lineEnd, ['\n']) :: l :: ls) (fun _ => True) (l :: ls) := by
  refine (takes_passBlank_of_ne (by decide) _).bind fun _ _ => takes_peek_bind fun t ht _ => ?_
  rw [ht]
  exact takes_passSpace

end Reader

/-! ## What lines say -/

/-- What a line says. -/
inductive Line where
  | heading (name : String)
  | setting (name : String) (v : Value)

/-- A statement says what a line says, wherever it stands. -/
inductive States : Statement → Line → Prop
  | heading {t : Token} {name : String} (span : Span) :
    nameOf t = .ok name → States (.heading span false [t]) (.heading name)
  | setting {t u : Token} {name : String} {v : Value} :
    nameOf t = .ok name → scalarOf u = .ok v → States (.setting [t] (.scalar u)) (.setting name v)

/-- What the lines of a text say. -/
inductive Says : List Char → List Line → Prop
  | nil : Says [] []
  | blank {cs : List Char} {lines : List Line} : Says cs lines → Says ('\n' :: cs) lines
  | heading {cs : List Char} {lines : List Line} {text name : String} :
    Reads nameOf text name → Says cs lines → Says ('[' :: (text.toList ++ ']' :: '\n' :: cs)) (.heading name :: lines)
  | setting {cs : List Char} {lines : List Line} {text name value : String} {v : Value} :
    Reads nameOf text name → Reads scalarOf value v → Says cs lines →
    Says (text.toList ++ ' ' :: '=' :: ' ' :: (value.toList ++ '\n' :: cs)) (.setting name v :: lines)

namespace Reader

variable {l : Lexeme} {ls : List Lexeme} {kind kind' : Kind} {text text' : List Char} {name : String} {v : Value}

theorem takes_heading (hkind : kind.IsScalar)
    (hname : ∀ t : Token, t.kind = kind → t.text = text → nameOf t = .ok name) :
    Takes heading ((.openBracket, ['[']) :: (kind, text) :: (.closeBracket, [']']) :: (.lineEnd, ['\n']) :: l :: ls)
      (States · (.heading name)) (l :: ls) := by
  have hnotMany : kind ≠ .openBracket := by obtain rfl | ⟨quoting, rfl⟩ := hkind <;> simp
  refine takes_peek_bind fun opening _ _ => takes_advance_bind ?_
  refine takes_peek_bind fun second _ _ => takes_peek_bind fun t ht _ => ?_
  rw [ht]
  simp only [hnotMany, if_false, decide_false, Bool.not_false, if_true]
  refine (takes_passBlank_of_ne hkind.ne_blank text).bind fun _ _ => (takes_key_heading hkind [']']).bind ?_
  rintro _ ⟨t, ht, htext, rfl⟩
  refine (takes_passBlank_of_ne (by decide) [']']).bind fun _ _ => takes_peek_bind fun close hclose _ => ?_
  rw [if_pos hclose]
  refine takes_advance_bind (takes_peek_bind fun _ _ _ => takes_passLineEnd.bind fun _ _ => ?_)
  exact takes_pure (.heading _ (hname t ht htext)) _

theorem takes_setting (hkind : kind.IsScalar)
    (hname : ∀ t : Token, t.kind = kind → t.text = text → nameOf t = .ok name)
    (hkind' : kind'.IsScalar)
    (hvalue : ∀ t : Token, t.kind = kind' → t.text = text' → scalarOf t = .ok v) :
    Takes setting ((kind, text) :: (.blank, [' ']) :: (.equals, ['=']) :: (.blank, [' ']) :: (kind', text') ::
      (.lineEnd, ['\n']) :: l :: ls) (States · (.setting name v)) (l :: ls) := by
  refine (takes_key_setting hkind [' '] ['=']).bind ?_
  rintro _ ⟨t, ht, htext, rfl⟩
  refine (takes_passBlank_of_ne (by decide) ['=']).bind fun _ _ => takes_peek_bind fun equals hequals _ => ?_
  rw [if_neg (by rw [hequals]; decide)]
  refine takes_advance_bind ((takes_passBlank [' ']).bind fun _ _ => (takes_valueOrGap hkind' ['\n']).bind ?_)
  rintro _ ⟨u, hu, hutext, rfl⟩
  refine takes_passLineEnd.bind fun _ _ => ?_
  exact takes_pure (.setting (hname t ht htext) (hvalue u hu hutext)) _

/-- From tokens of such kinds and texts the statements of a document are read, line by line. -/
def Delivers (ls : List Lexeme) (lines : List Line) : Prop :=
  ∀ steps, ls.length ≤ steps → Takes (statements steps) ls (List.Forall₂ States · lines) [(.finish, [])]

theorem delivers_finish : Delivers [(.finish, [])] [] := by
  intro steps hsteps
  obtain ⟨steps, rfl⟩ := Nat.exists_eq_succ_of_ne_zero (Nat.ne_zero_of_lt hsteps)
  rw [statements]
  refine takes_peek_bind fun t ht _ => ?_
  rw [ht]
  exact takes_pure .nil _

section

variable {lines : List Line}

theorem Delivers.emptyLine (h : Delivers (l :: ls) lines) : Delivers ((.lineEnd, ['\n']) :: l :: ls) lines := by
  intro steps hsteps
  obtain ⟨steps, rfl⟩ := Nat.exists_eq_succ_of_ne_zero (Nat.ne_zero_of_lt hsteps)
  rw [statements]
  refine takes_peek_bind fun t ht _ => ?_
  rw [ht]
  exact takes_passSpace.bind fun _ _ => h steps (Nat.le_of_succ_le_succ hsteps)

theorem Delivers.headingLine (h : Delivers (l :: ls) lines) (hkind : kind.IsScalar)
    (hname : ∀ t : Token, t.kind = kind → t.text = text → nameOf t = .ok name) :
    Delivers ((.openBracket, ['[']) :: (kind, text) :: (.closeBracket, [']']) :: (.lineEnd, ['\n']) :: l :: ls)
      (.heading name :: lines) := by
  intro steps hsteps
  obtain ⟨steps, rfl⟩ := Nat.exists_eq_succ_of_ne_zero (Nat.ne_zero_of_lt hsteps)
  simp only [List.length_cons] at hsteps
  rw [statements]
  refine takes_peek_bind fun t ht _ => ?_
  rw [ht]
  refine (takes_heading hkind hname).bind fun s hs => (h steps ?_).bind fun ss hss => takes_pure (.cons hs hss) _
  rw [List.length_cons]
  omega

theorem Delivers.settingLine (h : Delivers (l :: ls) lines) (hkind : kind.IsScalar)
    (hname : ∀ t : Token, t.kind = kind → t.text = text → nameOf t = .ok name)
    (hkind' : kind'.IsScalar)
    (hvalue : ∀ t : Token, t.kind = kind' → t.text = text' → scalarOf t = .ok v) :
    Delivers ((kind, text) :: (.blank, [' ']) :: (.equals, ['=']) :: (.blank, [' ']) :: (kind', text') ::
      (.lineEnd, ['\n']) :: l :: ls) (.setting name v :: lines) := by
  intro steps hsteps
  obtain ⟨steps, rfl⟩ := Nat.exists_eq_succ_of_ne_zero (Nat.ne_zero_of_lt hsteps)
  simp only [List.length_cons] at hsteps
  have hrest : Takes (statements steps) (l :: ls) (List.Forall₂ States · lines) [(.finish, [])] :=
    h steps (by rw [List.length_cons]; omega)
  have hline : Takes (do return (← setting) :: (← statements steps)) ((kind, text) :: (.blank, [' ']) ::
      (.equals, ['=']) :: (.blank, [' ']) :: (kind', text') :: (.lineEnd, ['\n']) :: l :: ls)
      (List.Forall₂ States · (.setting name v :: lines)) [(.finish, [])] := by
    refine (takes_setting hkind hname hkind' hvalue).bind fun s hs => hrest.bind fun ss hss => ?_
    exact takes_pure (.cons hs hss) _
  rw [statements]
  refine takes_peek_bind fun t ht _ => ?_
  rw [ht]
  obtain rfl | ⟨quoting, rfl⟩ := hkind <;> exact hline

end

/-- What the lines of a text say is what is read from its tokens. -/
theorem exists_delivers {cs : List Char} {lines : List Line} (h : Says cs lines) :
    ∃ ls, Lexed ls cs ∧ Delivers ls lines := by
  induction h with
  | nil => exact ⟨_, .finish, delivers_finish⟩
  | blank _ ih =>
    obtain ⟨ls, hlexed, hdelivers⟩ := ih
    obtain ⟨l, ls, rfl⟩ := List.exists_cons_of_ne_nil hlexed.ne_nil
    exact ⟨_, hlexed.mark rfl, hdelivers.emptyLine⟩
  | heading hname _ ih =>
    obtain ⟨ls, hlexed, hdelivers⟩ := ih
    obtain ⟨l, ls, rfl⟩ := List.exists_cons_of_ne_nil hlexed.ne_nil
    obtain ⟨kind, hlexeme, hkind, hname⟩ := hname
    have hclosed := ((hlexed.mark (c := '\n') rfl).mark (c := ']') rfl).lexeme hlexeme rfl
    exact ⟨_, hclosed.mark rfl, hdelivers.headingLine hkind hname⟩
  | setting hname hvalue _ ih =>
    obtain ⟨ls, hlexed, hdelivers⟩ := ih
    obtain ⟨l, ls, rfl⟩ := List.exists_cons_of_ne_nil hlexed.ne_nil
    obtain ⟨kind, hlexeme, hkind, hname⟩ := hname
    obtain ⟨kind', hlexeme', hkind', hvalue⟩ := hvalue
    have hend := (hlexed.mark (c := '\n') rfl).lexeme hlexeme' rfl
    have hequals := (hend.blank_lexeme hlexeme' hkind'.ne_blank).mark (c := '=') rfl
    exact ⟨_, (hequals.blank rfl).lexeme hlexeme rfl, hdelivers.settingLine hkind hname hkind' hvalue⟩

end Reader

/-- **What the lines of a text say is what is read from it.** -/
theorem Says.statements {cs : List Char} {lines : List Line} (h : Says cs lines)
    (hmark : cs.head? ≠ some Text.encodingMark) :
    ∃ ss, Statement.ofTokens (Token.ofText cs) = .ok ss ∧ List.Forall₂ States ss lines := by
  obtain ⟨ls, hlexed, hdelivers⟩ := Reader.exists_delivers h
  have htokens : (Token.ofText cs).map Token.lexeme = ls := by
    cases cs with
    | nil => exact hlexed.map_tokensFrom (Nat.le_refl _) 0
    | cons c cs =>
      rw [Token.ofText, if_neg fun hc => hmark (congrArg some hc)]
      exact hlexed.map_tokensFrom (Nat.le_refl _) 0
  obtain ⟨ss, ts, hrun, hss, -⟩ := hdelivers ((Token.ofText cs).length + 1)
    (by rw [← htokens, List.length_map]; omega) (Token.ofText cs) htokens
  refine ⟨ss, ?_, hss⟩
  change Prod.fst <$> (Reader.statements ((Token.ofText cs).length + 1)).run (Token.ofText cs) = _
  rw [hrun]
  rfl

end Scratchpad.Toml
