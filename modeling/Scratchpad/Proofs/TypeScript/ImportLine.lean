import Scratchpad.Proofs.TypeScript.HashBang
import Scratchpad.Proofs.TypeScript.Scanning

/-!
# A source behind an import

A line that imports a module for its effects alone is put in front of a source. What is read of the whole is
that import, and then the items of a module from the token on that begins the source. Nothing that may stand
only at the beginning of a source may stand there.

## Main definitions

* `importLine`: a line that imports a module for its effects alone.
* `Grammar.items`: the items of a module.
* `Document.itemsFrom`: what a module holds from a token on.

## Main statements

* `Document.parse_importLine`: a source behind an import is read as the import and the items behind it.
-/

namespace Scratchpad.TypeScript

/-! ## The line -/

/-- A line that imports a module for its effects alone. -/
def importLine (name : List Char) : List Char := "import \"".toList ++ name ++ "\";\n".toList

theorem importLine_append (name rest : List Char) :
    importLine name ++ rest =
      'i' :: ['m', 'p', 'o', 'r', 't'] ++ ' ' :: '"' :: (name ++ '"' :: ';' :: '\n' :: rest) := by
  have hopen : importLine name =
      'i' :: ['m', 'p', 'o', 'r', 't'] ++ ' ' :: '"' :: (name ++ ['"', ';', '\n']) := rfl
  simp only [hopen, List.append_assoc, List.cons_append, List.nil_append]

@[simp] theorem length_importLine (name : List Char) : (importLine name).length = name.length + 11 := by
  have h := congrArg List.length (importLine_append name [])
  simpa using h

namespace ImportLine

/-- The word that begins the line. -/
def word : Token := ⟨.word "import" false, 0, 6, true, []⟩

variable (name rest : List Char)

/-- The name of the module, as a lexeme. -/
def quoted : Lexeme := .text (String.ofList ('"' :: name ++ ['"'])) (String.ofList name)

/-- The mark that ends the import. -/
def semicolon : Token := ⟨.mark ";", name.length + 9, name.length + 10, false, []⟩

/-- The token behind the line. -/
def next : Token := (scanToken rest.toArray 0).shift (name.length + 11)

/-- The item that the line holds. -/
def node : Node :=
  .importDeclaration 0 false [] (.literal 7 (.text (String.ofList ('"' :: name ++ ['"'])) (String.ofList name)))
    .absent

section

variable {name rest} {s : Source} (hs : s.toList = importLine name ++ rest)

include hs

theorem scanToken_word : scanToken s 0 = word := by
  rw [importLine_append] at hs
  have hgap := skipGap_of_drop (i := 0) hs (by decide) true []
  have hlexeme := scanLexeme_word (i := 0) hs (by decide) (by decide) (by decide) (by decide)
  simp only [scanToken, beq_self_eq_true, hgap, hlexeme]
  rfl

theorem scanToken_quoted (hname : ∀ c ∈ name, c ≠ '"' ∧ c ≠ '\n' ∧ c ≠ '\r' ∧ c ≠ '\\') :
    scanToken s 6 = ⟨quoted name, 7, name.length + 9, false, []⟩ := by
  rw [importLine_append] at hs
  have hblank : s.toList.drop 6 = ' ' :: '"' :: (name ++ '"' :: ';' :: '\n' :: rest) := by
    rw [hs]
    rfl
  have hdrop : s.toList.drop 7 = '"' :: name ++ '"' :: ';' :: '\n' :: rest := drop_succ_of_drop hblank
  have hgap := skipGap_of_drop hdrop (by decide) false []
  have hlexeme := scanLexeme_text hdrop hname
  have h6 : ((6 : Nat) == 0) = false := rfl
  simp only [scanToken, h6, skipGap_blank hblank (by decide) (by decide), hgap, hlexeme,
    Nat.add_comm 7 name.length, Nat.add_assoc]
  rfl

theorem scanToken_semicolon : scanToken s (name.length + 9) = semicolon name := by
  rw [importLine_append] at hs
  have hdrop : s.toList.drop (name.length + 9) = ';' :: '\n' :: rest := by
    rw [hs]
    simp
  exact scanToken_mark hdrop (by decide) (by decide) (scanMark_semicolon (getElem?_of_drop hdrop))

omit hs in
theorem back?_toArray_importLine : (importLine name).toArray.back? = some '\n' := by
  have hline := importLine_append name []
  rw [List.append_nil] at hline
  simp [hline, List.getLast?_cons, List.getLast?_append]

theorem eq_toArray_append : s = (importLine name).toArray ++ rest.toArray := by
  rw [← Array.toList_inj]
  simp [hs]

theorem scanToken_next : scanToken s (name.length + 10) = next name rest := by
  have h := scanToken_append_zero (importLine name).toArray rest.toArray back?_toArray_importLine (by decide)
  rwa [← eq_toArray_append hs, List.size_toArray, length_importLine] at h

/-- Behind the line every token is read as it is read without it. -/
theorem scanToken_behind {i : Nat} (hi : 0 < i) :
    scanToken s (name.length + 11 + i) = (scanToken rest.toArray i).shift (name.length + 11) := by
  have h := scanToken_append (importLine name).toArray rest.toArray hi
  rwa [← eq_toArray_append hs, List.size_toArray, length_importLine] at h

end

theorem next_hash (name rest : List Char) :
    next name ('#' :: rest) = ⟨.mark "#", name.length + 11, name.length + 12, true, []⟩ := by
  have hdrop : ('#' :: rest).toArray.toList.drop 0 = '#' :: rest := rfl
  rw [next, scanToken_mark hdrop (by decide) (by decide) (scanMark_hash (getElem?_of_drop hdrop))]
  rfl

/-- The two marks that begin an interpreter's line begin no such line behind an import. -/
theorem isHashBang_next {name tail : List Char} {s : Source} (hs : s.toList = importLine name ++ '#' :: '!' :: tail)
    (htail : tail.head? ≠ some '=') : Grammar.IsHashBang s (next name ('#' :: '!' :: tail)) := by
  have hdrop : ('#' :: '!' :: tail).toArray.toList.drop 1 = '!' :: tail := rfl
  have htail' : ('#' :: '!' :: tail).toArray[1 + 1]? ≠ some '=' := by
    simpa [List.head?_eq_getElem?] using htail
  have hbang := scanToken_behind hs Nat.one_pos
  rw [scanToken_mark hdrop (by decide) (by decide) (scanMark_not (getElem?_of_drop hdrop) htail')] at hbang
  rw [next_hash]
  exact ⟨rfl, by rw [hbang]; rfl, by rw [hbang]; rfl, by rw [hbang]; rfl⟩

end ImportLine

/-! ## The import -/

namespace Grammar

open Rule

variable (ρ : Reading) (s : State)

theorem run_quotedText {t : Token} {raw value : String} (htext : s.token.lexeme = .text raw value)
    (ht : scanToken s.source s.token.stop = t) (hquiet : t.notices = []) :
    quotedText ρ s = .ok (.literal s.token.start (.text raw value)) { s with
      token := revealed s.mode t, lastStop := s.token.stop, lastStart := s.token.start } := by
  rw [quotedText, run_bind, run_current]
  simp only [htext, run_bind, run_advance ρ s ht hquiet]
  rfl

theorem run_importAttributes (hassert : s.token.lexeme.isWord "assert" = false)
    (hwith : s.token.lexeme.isWord "with" = false) : importAttributes ρ s = .ok .absent s := by
  cases hline : s.token.startsLine <;>
    simp [importAttributes, run_bind, run_map, run_eatWord_of_not ρ s hassert, run_eatWord_of_not ρ s hwith,
      hline]

theorem run_expectStatementEnd (h : s.token.lexeme = .mark ";") : expectStatementEnd ρ s = advance ρ s := by
  simp only [expectStatementEnd, eatStatementEnd, eatMark, run_bind, run_atMark, h]
  dsimp [Lexeme.isMark]
  simp only [run_bind]
  cases advance ρ s <;> simp

/-- An import for its effects alone ends by stepping over its semicolon. -/
theorem run_importItem {quoted semicolon : Token} {raw value : String}
    (hquoted : scanToken s.source s.token.stop = quoted) (htext : quoted.lexeme = .text raw value)
    (hquiet : quoted.notices = []) (hsemicolon : scanToken s.source quoted.stop = semicolon)
    (hmark : semicolon.lexeme = .mark ";") (hquiet' : semicolon.notices = []) :
    importItem ρ s =
      (do
        advance
        return Node.importDeclaration s.token.start false [] (.literal quoted.start (.text raw value)) .absent)
      ρ { s with token := semicolon, lastStop := quoted.stop, lastStart := quoted.start } := by
  have hrevealed : revealed s.mode quoted = quoted := by simp [revealed, htext]
  have hrevealed' : revealed s.mode semicolon = semicolon := by simp [revealed, hmark]
  have hattributes : ∀ w, semicolon.lexeme.isWord w = false := fun w => by rw [hmark]; rfl
  rw [importItem]
  simp only [run_bind, run_here, run_advance ρ s hquoted hquiet, hrevealed, run_lexeme, htext]
  rw [run_quotedText ρ _ htext hsemicolon hquiet']
  simp only [hrevealed']
  rw [run_importAttributes ρ _ (hattributes _) (hattributes _)]
  dsimp only
  rw [run_expectStatementEnd ρ _ hmark]

/-- At the top level the word `import` with neither a parenthesis nor a point behind it begins an import. -/
theorem run_statement_import {node : Node} {s' : State} (hword : s.token.lexeme = .word "import" false)
    (hnext : ∀ m, (scanToken s.source s.token.stop).lexeme.isMark m = false)
    (hcolon : s.mode.colonEnds = false) (hitem : importItem ρ s = .ok node s') (hmode : s'.mode = s.mode) :
    statement true true moduleItem ρ s = .ok node s' := by
  have hchange : { s.mode with isTopLevel := s.mode.isTopLevel && true, colonEnds := false } = s.mode := by
    rw [Bool.and_true, ← hcolon]
  have hmodule : moduleItem [] ρ s = .ok node s' := by
    rw [moduleItem, run_bind, run_atWord, hword]
    exact hitem
  rw [statement, run_within, hchange]
  simp only [run_bind, run_here, run_decorators ρ s (by rw [hword]; rfl), run_atWords, hword]
  simp [Lexeme.isWord, run_bind, hword, hnext, hmodule, ← hmode]

/-- Reads an item of a module, unless the source is used up. -/
def item : Rule (Option Node) := do
  if ← atEnd then return none
  return some (← goal (.statement true true))

/-- Reads the items of a module, at most `limit` of them. -/
def items (limit : Nat) : Rule (List Node) := repeatStep (collect item) limit []

theorem run_statements (h : isStrictDirective s.token = false) :
    statements true true false ρ s = items (s.source.size + 2) ρ s := by
  have hlook (m : String) (r : Rule (Option Node)) : (do let _ ← atMark m; r) = r := by
    funext ρ s
    rw [run_bind, run_atMark]
  have hitem : item = (do
    if ← atEnd then pure none
    else do
      let node ← goal (.statement true true)
      pure (some node)) := rfl
  rw [statements, run_bind, run_current]
  dsimp only
  rw [h]
  simp only [Bool.and_false, Bool.false_and, Bool.false_eq_true, if_false, run_bind, hlook]
  rw [← hitem]
  change _ = many item ρ s
  cases many item ρ s <;> rfl

end Grammar

/-! ## What comes behind it -/

namespace ImportLine

open Rule Grammar

/-- Where reading stands when the import has been read and the token behind the line is to be settled. -/
def behind (name : List Char) (s : State) : State :=
  { s with token := semicolon name, lastStop := name.length + 10, lastStart := name.length + 9 }

section

variable {name rest : List Char} {s : State} (hs : s.source.toList = importLine name ++ rest)
  (hname : ∀ c ∈ name, c ≠ '"' ∧ c ≠ '\n' ∧ c ≠ '\r' ∧ c ≠ '\\') (htoken : s.token = word)

include hs hname htoken

/-- The first item is the import. -/
theorem exists_run_item (hcolon : s.mode.colonEnds = false) (depth : Nat) :
    ∃ s', item { run := read (depth + 1) } s = .ok (some (node name)) s' ∧
      ∀ ρ, settle (next name rest) ρ (behind name s) = .ok () s' := by
  obtain ⟨s', hs', hmode⟩ := keeps_settle (next name rest) (behind name s)
  refine ⟨s', ?_, hs'⟩
  have hquoted : scanToken s.source s.token.stop = ⟨quoted name, 7, name.length + 9, false, []⟩ := by
    rw [htoken]
    exact scanToken_quoted hs hname
  have himport : importItem { run := read depth } s = .ok (node name) s' := by
    have hadvance (lastStop lastStart : Nat) : advance { run := read depth }
        { s with token := semicolon name, lastStop, lastStart } = .ok () s' := by
      have hnext : scanToken s.source (semicolon name).stop = next name rest := scanToken_next hs
      rw [← hs', ← hnext]
      rfl
    rw [run_importItem _ s hquoted rfl rfl (scanToken_semicolon hs) rfl rfl, run_bind, hadvance, htoken]
    rfl
  have hstatement := run_statement_import _ s (by rw [htoken]; rfl) (by rw [hquoted]; exact fun _ => rfl)
    hcolon himport hmode
  have hgoal : goal (.statement true true) { run := read (depth + 1) } s = .ok (node name) s' := hstatement
  rw [item, run_bind, run_atEnd, htoken]
  change (do
    let node ← goal (.statement true true)
    return some node : Rule (Option Node)) { run := read (depth + 1) } s = _
  rw [run_bind, hgoal]
  rfl

end

end ImportLine

namespace Document

open ImportLine

/-- How a module is read. -/
def moduleMode : Mode := { isModule := true, mayBeModule := true, isStrict := true, isTopLevel := true }

/-- What a module holds from a token on, at most `limit` items, or the first flaw that counts there. -/
def itemsFrom (first : Token) (limit : Nat) (s : State) : Except Flaw (List Node) :=
  let reading : Rule (List Node) := do
    Rule.settle first
    Grammar.items limit
  match reading { run := Grammar.read (depthFor s.source.size) } s with
  | .error flaw _ => .error flaw
  | .ok items s =>
    match (s.moduleFlaws ++ s.flaws).getLast? with
    | some flaw => .error flaw
    | none => .ok items

/-- A source behind an import is read as the import and what a module holds from the first token of the source
on. -/
theorem parse_importLine {text : String} {name rest : List Char} (h : text.toList = importLine name ++ rest)
    (hname : ∀ c ∈ name, c ≠ '"' ∧ c ≠ '\n' ∧ c ≠ '\r' ∧ c ≠ '\\') :
    parse true text =
      (itemsFrom (next name rest) (text.toList.length + 1)
        (behind name { source := text.toList.toArray, token := word, mode := moduleMode })).map fun items =>
          { items := node name :: items } := by
  generalize hsource : text.toList.toArray = source
  have hs : source.toList = importLine name ++ rest := by rw [← hsource, List.toList_toArray, h]
  have hsize : text.toList.length = source.size := by rw [← hsource, List.size_toArray]
  have hshebang : shebangStop? source = none := by
    rw [importLine_append] at hs
    have h0 : source[0]? = some 'i' := getElem?_of_drop (i := 0) hs
    simp [shebangStop?, Source.hasAt, h0]
  let ρ : Reading := { run := Grammar.read (depthFor source.size) }
  let s₁ : State := { source, token := word, mode := moduleMode }
  obtain ⟨s', hitem, hsettle⟩ := exists_run_item (s := s₁) hs hname rfl rfl (12 * source.size + 63)
  have hread : (do
      Rule.settle word
      Grammar.statements true true false : Rule (List Node)) ρ s₁ =
      ((node name :: ·) <$> Grammar.items (source.size + 1)) ρ s' := by
    rw [Rule.run_bind, Rule.run_settle ρ s₁ rfl]
    exact (Grammar.run_statements ρ s₁ rfl).trans
      (Rule.run_repeatStep_collect_of_some ρ s₁ hitem (source.size + 1))
  have hfrom : (do
      Rule.settle (next name rest)
      Grammar.items (source.size + 1) : Rule (List Node)) ρ (behind name s₁) =
      Grammar.items (source.size + 1) ρ s' := by
    rw [Rule.run_bind, hsettle]
  rw [parse, itemsFrom, hsource, hshebang, hsize]
  dsimp only [Option.getD_none]
  rw [scanToken_word hs]
  change (match (do
      Rule.settle word
      Grammar.statements true true false : Rule (List Node)) ρ s₁ with
    | .error flaw _ => _
    | .ok items s => _) = Except.map _ (match (do
      Rule.settle (next name rest)
      Grammar.items (source.size + 1) : Rule (List Node)) ρ (behind name s₁) with
    | .error flaw _ => _
    | .ok items s => _)
  rw [hread, hfrom, Rule.run_map]
  cases Grammar.items (source.size + 1) ρ s' with
  | error flaw s'' => rfl
  | ok items s'' =>
    have hmodule : (s''.hasModuleItem || (node name :: items).any isModuleItem) = true := by
      simp [node, isModuleItem]
    dsimp only
    rw [if_pos hmodule]
    cases (s''.moduleFlaws ++ s''.flaws).getLast? <;> rfl

/-- Behind an import the two marks of an interpreter's line begin no item. -/
theorem itemsFrom_hashBang {name tail : List Char} {s : State}
    (hs : s.source.toList = importLine name ++ '#' :: '!' :: tail) (htail : tail.head? ≠ some '=') (limit : Nat) :
    itemsFrom (next name ('#' :: '!' :: tail)) (limit + 1) (behind name s) =
      .error ⟨name.length + 12, .identifierExpected⟩ := by
  have hhash := next_hash name ('!' :: tail)
  have hmarks := isHashBang_next hs htail
  rw [hhash] at hmarks ⊢
  let ρ : Reading := { run := Grammar.read (depthFor s.source.size) }
  let s₁ : State := { behind name s with token := ⟨.mark "#", name.length + 11, name.length + 12, true, []⟩ }
  obtain ⟨s', hs', -⟩ := Grammar.stumbles_read (12 * s.source.size + 61) true true s₁ hmarks
  have hgoal : Rule.goal (.statement true true) ρ s₁ = .error ⟨name.length + 12, .identifierExpected⟩ s' := hs'
  have hitem : Grammar.item ρ s₁ = .error ⟨name.length + 12, .identifierExpected⟩ s' := by
    rw [Grammar.item, Rule.run_bind, Rule.run_atEnd]
    change (do
      let node ← Rule.goal (.statement true true)
      return some node : Rule (Option Node)) ρ s₁ = _
    rw [Rule.run_bind, hgoal]
  have hread : (do
      Rule.settle ⟨.mark "#", name.length + 11, name.length + 12, true, []⟩
      Grammar.items (limit + 1) : Rule (List Node)) ρ (behind name s) =
      .error ⟨name.length + 12, .identifierExpected⟩ s' := by
    rw [Rule.run_bind, Rule.run_settle ρ (behind name s) rfl]
    exact Rule.run_repeatStep_collect_of_error ρ s₁ hitem limit
  rw [itemsFrom]
  change (match (do
      Rule.settle ⟨.mark "#", name.length + 11, name.length + 12, true, []⟩
      Grammar.items (limit + 1) : Rule (List Node)) ρ (behind name s) with
    | .error flaw _ => _
    | .ok items s => _) = _
  rw [hread]

end Document

end Scratchpad.TypeScript
