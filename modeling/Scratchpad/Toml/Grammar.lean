import Scratchpad.Toml.Flaw

/-!
# The grammar of documents

A document is a list of statements: headings, which name the table that follows, and settings, which give
a value to a key. Reading looks at the kinds of the tokens alone, so that the pieces of which keys and
values are made are kept as they stand. A key or a value that is missing is read as an empty piece where
it should stand, and the rest of such a line is passed over.

## Main definitions

* `Expression`, `Statement`: what a document is made of.
* `Statement.ofTokens`: the statements of a document.
-/

namespace Scratchpad.Toml

/-- A value as it is written. -/
inductive Expression where
  | scalar (piece : Token)
  | list (span : Span) (items : List Expression)
  | table (span : Span) (settings : List (List Token × Expression))
deriving Inhabited

/-- What a document is made of. The names of a dotted key are kept in order. -/
inductive Statement where
  /-- The heading of a table, or of one more of many tables. -/
  | heading (span : Span) (ofMany : Bool) (key : List Token)
  | setting (key : List Token) (value : Expression)
deriving Inhabited

/-- Reads from tokens, of which the last one stays. -/
abbrev Reader (α : Type) := StateT (List Token) (Except Misfit) α

namespace Reader

variable {α : Type}

/-- There is a flaw in a stretch. -/
def fail (flaw : Flaw) (span : Span) : Reader α := throw ⟨flaw, span⟩

/-- The next token. -/
def peek : Reader Token := return (← get).headD default

/-- Passes the next token, unless it is the last. -/
def advance : Reader Unit := modify fun
  | _ :: t :: ts => t :: ts
  | ts => ts

/-- How many tokens are left, which bounds how often anything can be repeated. -/
def remaining : Reader Nat := return (← get).length + 1

/-- An empty piece at a place. -/
def gapAt (s : Span) : Token := ⟨.bare, s.start, []⟩

/-- The first of the characters that does not satisfy a test, given the place of the first one. -/
def firstOutside? (p : Char → Bool) : (place : Nat) → List Char → Option Nat
  | _, [] => none
  | place, c :: cs => if p c then firstOutside? p (place + c.utf8Size) cs else some place

/-- Whether a character is a control other than the tabulator. -/
def isControl (c : Char) : Bool := (c.toNat < 0x20 && c != '\t') || c.toNat == 0x7F

/-- Passes a blank, a comment or the end of a line, which have to be free of controls. -/
def passSpace : Reader Unit := do
  let t ← peek
  match t.kind with
  | .comment =>
    match firstOutside? (fun c => !isControl c) t.start t.text with
    | some place => fail .commentCharacter ⟨place, place⟩
    | none => advance
  | .lineEnd => if t.text = ['\r'] then fail .loneReturn t.span.behind else advance
  | _ => advance

/-- Passes blanks. Blanks that follow each other are one token. -/
def passBlank : Reader Unit := do
  if (← peek).kind = .blank then advance

/-- Passes what is left of a line. -/
def passLine : Nat → Reader Unit
  | 0 => return
  | steps + 1 => do
    match (← peek).kind with
    | .finish => return
    | .lineEnd => passSpace
    | _ => do passSpace; passLine steps

/-! ## Keys -/

/-- Whether a token can be a name in a key. -/
def isName (t : Token) : Bool :=
  match t.kind with
  | .string _ | .bare => true
  | _ => false

/-- The names of a dotted key, and whether all of them are there. -/
def names : (steps : Nat) → (needsName : Bool) → Reader (List Token × Bool)
  | 0, _ => return ([], true)
  | steps + 1, true => do
    let t ← peek
    if isName t then
      advance
      let (more, whole) ← names steps false
      return (t :: more, whole)
    else match t.kind with
      | .blank => do advance; names steps true
      | .dot =>
        advance
        let (more, whole) ← names steps true
        return (gapAt t.span :: more, whole)
      | _ => return ([gapAt t.span], false)
  | steps + 1, false => do
    match (← peek).kind with
    | .blank => do advance; names steps false
    | .dot => do advance; names steps true
    | _ => return ([], true)

/-- A key, and whether all of its names are there. -/
def key : Reader (List Token × Bool) := do names (2 * (← remaining)) true

/-! ## Values -/

/-- What a scalar without quotes goes on with. Blanks belong to it if a bare word follows them. -/
def scalarTail : List Token → List Char × List Token
  | t :: u :: ts =>
    if t.kind = .bare ∨ t.kind = .dot then
      let (more, rest) := scalarTail (u :: ts)
      (t.text ++ more, rest)
    else if t.kind = .blank ∧ u.kind = .bare then
      let (more, rest) := scalarTail (u :: ts)
      (t.text ++ more, rest)
    else ([], t :: u :: ts)
  | ts => ([], ts)

/-- A scalar that begins with the next token. -/
def scalar : Reader Expression := do
  let t ← peek
  match t.kind with
  | .bare | .dot =>
    let (text, rest) := scalarTail (← get)
    set rest
    return .scalar ⟨.bare, t.start, text⟩
  | _ => do advance; return .scalar t

/-- How deep values may be nested in each other. -/
def deepest : Nat := 80

mutual

/-- The items of a list and the place where it ends. -/
def items : (steps depth : Nat) → (needsItem : Bool) → Reader (List Expression × Span)
  | 0, _, _ => do fail .listUnclosed (← peek).span
  | steps + 1, depth, needsItem => do
    let t ← peek
    match t.kind with
    | .blank | .comment | .lineEnd => do passSpace; items steps depth needsItem
    | .finish => fail .listUnclosed t.span
    | .comma =>
      if needsItem then fail .commaInList t.span
      else do advance; items steps depth true
    | .equals => fail .equalsInList t.span
    | .closeBracket => do advance; return ([], t.span)
    | _ =>
      if !needsItem then fail .commaMissingInList t.span.before
      else
        let item ← value steps depth
        let (more, stop) ← items steps depth false
        return (item :: more, stop)

/-- The settings of a table that stands within a value, and the place where it ends. -/
def settings : (steps depth : Nat) → (need : Need) → (key : List Token) →
    Reader (List (List Token × Expression) × Span)
  | 0, _, _, _ => do fail .tableUnclosed (← peek).span
  | steps + 1, depth, need, pending => do
    let t ← peek
    match t.kind with
    | .blank | .comment | .lineEnd => do passSpace; settings steps depth need pending
    | .finish => fail .tableUnclosed t.span
    | .comma =>
      match need with
      | .comma => do advance; settings steps depth .key []
      | _ => fail (.commaInTable need) t.span
    | .equals =>
      match need with
      | .key => do advance; settings steps depth .value [gapAt t.span]
      | .equals => do advance; settings steps depth .value pending
      | _ => fail (.equalsInTable need) t.span
    | .closeBrace =>
      match need with
      | .equals => fail .equalsMissingInTable t.span.before
      | .value => do
        advance
        return ([(pending, .scalar (gapAt t.span))], t.span)
      | _ => do advance; return ([], t.span)
    | .openBrace | .openBracket =>
      match need with
      | .key | .comma => fail (.keyMissingInTable need) t.span
      | .equals => fail .equalsMissingInTable t.span
      | .value => settingsFrom steps depth pending
    | .closeBracket =>
      match need with
      | .value => fail .listUnopened t.span
      | _ => fail (.strayInTable need) t.span
    | _ =>
      match need with
      | .key =>
        let (names, _) ← key
        settings steps depth .equals names
      | .equals => fail .keyInTable t.span.before
      | .value => settingsFrom steps depth pending
      | .comma => fail .commaMissingInTable t.span.before

/-- The value of a key and the settings that follow. -/
def settingsFrom : (steps depth : Nat) → (key : List Token) →
    Reader (List (List Token × Expression) × Span)
  | 0, _, _ => do fail .tableUnclosed (← peek).span
  | steps + 1, depth, names => do
    let v ← value steps depth
    let (more, stop) ← settings steps depth .comma []
    return ((names, v) :: more, stop)

/-- The value that begins with the next token. -/
def value : (steps depth : Nat) → Reader Expression
  | 0, _ => do fail .tooDeep (← peek).span
  | steps + 1, depth => do
    let t ← peek
    match t.kind, depth with
    | .openBracket, 0 | .openBrace, 0 => fail .tooDeep t.span
    | .openBracket, depth + 1 =>
      advance
      let (items, stop) ← items steps depth true
      return .list (t.span.to stop) items
    | .openBrace, depth + 1 =>
      advance
      let (settings, stop) ← settings steps depth .key []
      return .table (t.span.to stop) settings
    | .closeBracket, _ => fail .listUnopened t.span.before
    | .closeBrace, _ => fail .tableUnopened t.span.before
    | _, _ => scalar

end

/-- A value, and whether there is one. -/
def valueOrGap : Reader (Expression × Bool) := do
  let t ← peek
  match t.kind with
  | .comment | .comma | .lineEnd | .finish | .blank => return (.scalar (gapAt t.span), false)
  | .equals => fail .secondEquals t.span
  | _ => do return (← value (4 * (← remaining)) deepest, true)

/-! ## Statements -/

/-- Passes the end of a line, which nothing but a comment may precede. -/
def passLineEnd : Reader Unit := do
  passBlank
  let t ← peek
  match t.kind with
  | .finish => return
  | .lineEnd => passSpace
  | .comment => do
    passSpace
    if (← peek).kind = .lineEnd then passSpace
  | _ => fail .lineEndExpected t.span.before

/-- The end of the last token of a key. -/
def keyEnd (opening : Span) (names : List Token) : Span :=
  match names.getLast? with
  | none => opening.behind
  | some t => t.span.behind

/-- A heading. -/
def heading : Reader Statement := do
  let opening := (← peek).span
  advance
  let second := (← peek).span
  let ofMany := (← peek).kind = .openBracket
  if ofMany then advance
  passBlank
  let (names, whole) ← key
  passBlank
  let start := if ofMany then opening.to second else opening
  let t ← peek
  if t.kind = .closeBracket then
    advance
    let u ← peek
    if !ofMany then
      passLineEnd
      return .heading (start.to t.span) false names
    else if u.kind = .closeBracket then
      advance
      passLineEnd
      return .heading (start.to u.span) true names
    else fail (.headingOpen true "]") t.span.behind
  else if whole then
    fail (.headingOpen ofMany (if ofMany then "]]" else "]")) (keyEnd start names)
  else
    passLine (← remaining)
    return .heading start ofMany names

/-- A setting. -/
def setting : Reader Statement := do
  let (names, _) ← key
  passBlank
  let t ← peek
  if t.kind ≠ .equals then fail .valueMissing t.span.before
  advance
  passBlank
  let (v, isThere) ← valueOrGap
  if isThere then passLineEnd else passLine (← remaining)
  return .setting names v

/-- The statements up to the end. -/
def statements : (steps : Nat) → Reader (List Statement)
  | 0 => return []
  | steps + 1 => do
    let t ← peek
    match t.kind with
    | .finish => return []
    | .blank | .comment | .lineEnd => do passSpace; statements steps
    | .openBracket => do
      let s ← heading
      return s :: (← statements steps)
    | .closeBracket => fail .headingUnopened t.span.before
    | .comma | .openBrace | .closeBrace => fail .keyExpected t.span.before
    | _ => do
      let s ← setting
      return s :: (← statements steps)

end Reader

/-- The statements of a document. -/
def Statement.ofTokens (tokens : List Token) : Except Misfit (List Statement) :=
  (Reader.statements (tokens.length + 1)).run' tokens

end Scratchpad.Toml
