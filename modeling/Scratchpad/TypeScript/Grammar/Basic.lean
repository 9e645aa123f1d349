import Scratchpad.TypeScript.Node
import Scratchpad.TypeScript.Token.Scan

/-!
# Reading by rules

A rule reads a syntax node from a position of the source, notes flaws that it can step over, and gives
up at a flaw that it cannot. A rule refers to the nonterminals of the grammar, and so to itself, only
through the goals that it is given; `Grammar.read` closes the circle, spending one unit of depth for each goal.

## Main definitions

* `Goal`: the nonterminals that rules may call.
* `Mode`: what the surrounding code allows.
* `State`: where reading stands.
* `Rule`: readers that may call goals, note flaws and give up.
-/

namespace Scratchpad.TypeScript

/-- What a value that was read as an expression is to become. -/
inductive PatternUse where
  /-- The target of an assignment. -/
  | assigned
  /-- A parameter. -/
  | bound
deriving DecidableEq, Inhabited

/-- The nonterminals through which rules call each other. -/
inductive Goal where
  | assignment
  | unary
  /-- The operators behind an operand that bind more strongly than a level. -/
  | operators (left : Node) (level : Nat)
  | member (isNew : Bool)
  /-- A value with the accesses and calls behind it. -/
  | leftHandSide
  /-- The accesses and calls behind a value. -/
  | accesses (base : Node) (mayCall mayIndex : Bool)
  | statement (mayDeclare isTopLevel : Bool)
  | type
  | operatorType
  | pattern
  | asPattern (use : PatternUse) (expression : Node)
deriving Inhabited

/-- What the surrounding code allows and how it is read. -/
structure Mode where
  /-- Whether the source is known to be a module. -/
  isModule : Bool := false
  /-- Whether the source becomes a module when it holds a module item. -/
  mayBeModule : Bool := false
  isStrict : Bool := false
  isTopLevel : Bool := false
  inAsync : Bool := false
  inGenerator : Bool := false
  inFunction : Bool := false
  inParameters : Bool := false
  inClass : Bool := false
  inField : Bool := false
  inStaticBlock : Bool := false
  inAmbient : Bool := false
  hasNewTarget : Bool := false
  mayBreak : Bool := false
  mayContinue : Bool := false
  /-- Whether `in` is an operator. -/
  allowsIn : Bool := true
  inLoopHead : Bool := false
  inAwaitLoopHead : Bool := false
  inConditional : Bool := false
  /-- Whether a colon ends the value that is being read. -/
  colonEnds : Bool := false
  noConditionalTypes : Bool := false
  /-- Whether flaws that can be stepped over are dropped. -/
  isTrial : Bool := false
deriving Inhabited

/-- Where reading stands. -/
structure State where
  source : Source
  token : Token
  /-- Where the token before the current one ended, and began. -/
  lastStop : Nat := 0
  lastStart : Nat := 0
  mode : Mode := {}
  /-- Flaws stepped over so far, latest first. -/
  flaws : List Flaw := []
  /-- Flaws that count only if the source is a module, latest first. -/
  moduleFlaws : List Flaw := []
  labels : List String := []
  /-- The position at which a parameter list without a keyword may begin. -/
  arrowStart : Option Nat := none
  hasModuleItem : Bool := false
deriving Inhabited

/-- A way to read each goal. -/
structure Reading where
  run : Goal → EStateM Flaw State Node

/-- Readers that may call goals, note flaws and give up. -/
abbrev Rule (α : Type) := ReaderT Reading (EStateM Flaw State) α

namespace Rule

/-- Reads a goal. -/
def goal (g : Goal) : Rule Node := fun reading => reading.run g

/-- The current token. -/
def current : Rule Token := do return (← get).token

/-- The current lexeme. -/
def lexeme : Rule Lexeme := do return (← get).token.lexeme

/-- Where the current token begins. -/
def here : Rule Nat := do return (← get).token.start

/-- What the surrounding code allows. -/
def mode : Rule Mode := do return (← get).mode

/-- Reads with another mode, and comes back to the present one afterwards, also when giving up. -/
def within {α : Type} (change : Mode → Mode) (r : Rule α) : Rule α := fun reading s =>
  let before := s.mode
  match r reading { s with mode := change before } with
  | .ok a s => .ok a { s with mode := before }
  | .error e s => .error e { s with mode := before }

/-- The token behind the current one. -/
def ahead : Rule Token := do
  let s ← get
  return scanToken s.source s.token.stop

/-! ### Flaws -/

/-- Notes a flaw as it stands. -/
def note (flaw : Flaw) : Rule Unit := modify fun s =>
  if s.mode.isTrial then s else { s with flaws := flaw :: s.flaws }

/-- Notes a flaw and goes on. A token that cannot be read is noted first. -/
def report (pos : Nat) (fault : Fault) : Rule Unit := do
  if let .broken flaw ← lexeme then note flaw
  note ⟨pos, fault⟩

/-- Notes a flaw of strict code: at once in strict code, and otherwise in case the source turns out to be
a module. -/
def reportStrict (pos : Nat) (fault : Fault) : Rule Unit := do
  if (← mode).isStrict then report pos fault
  else modify fun s =>
    if s.mode.isTrial then s else { s with moduleFlaws := ⟨pos, fault⟩ :: s.moduleFlaws }

/-- Gives up. A token that cannot be read is the reason, if it is the current one. -/
def fail {α : Type} (pos : Nat) (fault : Fault) : Rule α := do
  if let .broken flaw ← lexeme then throw flaw
  throw ⟨pos, fault⟩

/-- Gives up at the current token. -/
def failHere {α : Type} (fault : Fault) : Rule α := do
  fail (← here) fault

/-- Gives up because the current token is not what the grammar wants. -/
def unexpected {α : Type} (wanted : String) : Rule α := do
  let t ← current
  fail t.start (.unexpected t.lexeme.shown wanted)

/-- Gives up at the end of the source. -/
def failAtEnd : Rule Unit := do
  if (← lexeme) == .done then failHere .endOfInput

/-! ### Tokens -/

/-- A token as the mode has it. A word that is reserved there cannot be read if its spelling hides that. -/
def revealed (m : Mode) (t : Token) : Token :=
  match t.lexeme with
  | .word w true =>
    if (w == "let" && m.isStrict) || (w == "yield" && (m.isStrict || m.inGenerator)) ||
        (w == "await" && (m.isModule || m.inAsync || m.inStaticBlock)) then
      { t with lexeme := .broken ⟨t.start, .escapeInReservedWord w⟩ }
    else t
  | _ => t

/-- Makes a token the current one. -/
def settle (t : Token) : Rule Unit := do
  modify fun s => { s with token := revealed s.mode t }
  for n in t.notices do
    match n.scope with
    | .anywhere => note n.flaw
    | .strictCode => reportStrict n.flaw.pos n.flaw.fault
    | .moduleCode =>
      if (← mode).isModule then note n.flaw
      else modify fun s =>
        if s.mode.isTrial then s else { s with moduleFlaws := n.flaw :: s.moduleFlaws }

/-- Steps to the next token. -/
def advance : Rule Unit := do
  let s ← get
  set { s with lastStop := s.token.stop, lastStart := s.token.start }
  settle (scanToken s.source s.token.stop)

/-- Goes on behind a position of the source. -/
def resume (stop : Nat) : Rule Unit := do
  let s ← get
  set { s with lastStop := stop, lastStart := s.token.start }
  settle (scanToken s.source stop)

/-- Whether the current token is the given punctuation. -/
def atMark (m : String) : Rule Bool := do return (← lexeme).isMark m

/-- Whether the current token is the given word. -/
def atWord (w : String) : Rule Bool := do return (← lexeme).isWord w

/-- Whether the current token is one of the given marks. -/
def atMarks (ms : List String) : Rule Bool := do
  let l ← lexeme
  return ms.any l.isMark

/-- Whether the current token is one of the given words. -/
def atWords (ws : List String) : Rule Bool := do
  let l ← lexeme
  return ws.any l.isWord

/-- Whether the source is used up. -/
def atEnd : Rule Bool := do return (← lexeme) == .done

/-- Whether a line ends in front of the current token. -/
def afterLine : Rule Bool := do return (← current).startsLine

/-- Steps over the given punctuation if it is there. -/
def eatMark (m : String) : Rule Bool := do
  if ← atMark m then advance; return true
  else return false

/-- Steps over the given word if it is there. -/
def eatWord (w : String) : Rule Bool := do
  if ← atWord w then advance; return true
  else return false

/-- Steps over the given punctuation, which has to be there. -/
def expectMark (m : String) : Rule Unit := do
  unless ← eatMark m do
    let t ← current
    fail t.start (.expected m t.lexeme.shown)

/-- Steps over the given word, which has to be there. -/
def expectWord (w : String) : Rule Unit := do
  unless ← eatWord w do
    let t ← current
    fail t.start (.expected w t.lexeme.shown)

/-- Shortens a token that begins with a closing or opening angle bracket to that bracket alone, as types
need it. -/
def splitAngle (bracket : String) : Rule Unit := modify fun s =>
  match s.token.lexeme with
  | .mark m =>
    if m != bracket && m.startsWith bracket && (m.startsWith ">" || m.startsWith "<<") then
      { s with token := { s.token with lexeme := .mark bracket, stop := s.token.start + 1 } }
    else s
  | _ => s

/-- Whether a closing angle bracket of types comes next; makes it a token of its own. -/
def atClosingAngle : Rule Bool := do
  splitAngle ">"
  atMark ">"

/-- Whether an opening angle bracket of types comes next. -/
def atOpeningAngle : Rule Bool := atMarks ["<", "<<"]

/-! ### Names -/

/-- Whether a word names a variable in the present mode. -/
def isName (m : Mode) : Lexeme → Bool
  | .word w _ =>
    !(isReservedWord w) && !(m.isStrict && (isStrictReservedWord w || w == "let" || w == "yield")) &&
      !(w == "await" && (m.inAsync || m.inStaticBlock || m.isModule)) &&
      !(w == "yield" && m.inGenerator)
  | _ => false

/-- Whether the current token names a variable. -/
def atName : Rule Bool := do return isName (← mode) (← lexeme)

/-- Whether the token ahead names a variable and stands on the same line. -/
def nameFollowsOnLine : Rule Bool := do
  let t ← ahead
  return isName (← mode) t.lexeme && !t.startsLine

/-! ### Statement ends -/

/-- Whether a statement may end here: at a semicolon, which is left in place, before a closing brace, at
a line end or at the end of the source. -/
def atStatementEnd : Rule Bool := do
  return (← atMarks [";", "\x7d"]) || (← afterLine) || (← atEnd)

/-- Steps over the end of a statement if one may be here. -/
def eatStatementEnd : Rule Bool := do
  if ← eatMark ";" then return true
  else atStatementEnd

/-- Steps over the end of a statement, which has to be here. -/
def expectStatementEnd : Rule Unit := do
  unless ← eatStatementEnd do
    let t ← current
    fail t.start (.expected ";" t.lexeme.shown)

/-! ### Trying and repeating -/

/-- Reads on trial: what `r` reads counts if it ends with a value; otherwise nothing was read. Flaws met
on the way are dropped in either case. -/
def attempt {α : Type} (r : Rule (Option α)) : Rule (Option α) := fun reading s =>
  let trial := s.mode.isTrial
  match r reading { s with mode := { s.mode with isTrial := true } } with
  | .ok (some a) s' => .ok (some a) { s' with mode := { s'.mode with isTrial := trial } }
  | .ok none _ => .ok none s
  | .error _ _ => .ok none s

/-- Whether a reader succeeds from here, without reading anything. -/
def foresee (r : Rule Bool) : Rule Bool := fun reading s =>
  match r reading { s with mode := { s.mode with isTrial := true } } with
  | .ok b _ => .ok b s
  | .error _ _ => .ok false s

/-- Repeats a step at most `fuel` times, until it delivers a result. -/
def repeatStep {σ β : Type} (step : σ → Rule (σ ⊕ β)) : Nat → σ → Rule β
  | 0, _ => failHere .nestingTooDeep
  | fuel + 1, s => do
    match ← step s with
    | .inl s => repeatStep step fuel s
    | .inr b => return b

/-- Repeats a step until it delivers a result. Each step reads at least one token or ends the loop, so
the length of the source bounds their number. -/
def loop {σ β : Type} (start : σ) (step : σ → Rule (σ ⊕ β)) : Rule β := do
  repeatStep step ((← get).source.size + 2) start

/-- Collects the values of a reader until it delivers none. -/
def many {α : Type} (r : Rule (Option α)) : Rule (List α) :=
  loop ([] : List α) fun acc => do
    match ← r with
    | some a => return .inl (a :: acc)
    | none => return .inr acc.reverse

end Rule

end Scratchpad.TypeScript
