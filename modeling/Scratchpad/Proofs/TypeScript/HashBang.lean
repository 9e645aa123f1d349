import Scratchpad.Proofs.TypeScript.Running
import Scratchpad.Proofs.TypeScript.Scanning
import Scratchpad.TypeScript.Printer

/-!
# The line that names an interpreter

Such a line begins with a hash and an exclamation mark. At the very beginning of a source it is stepped over, and
it is printed again in front of everything else. Anywhere else its two marks are a hash, which begins the name of
a private member, and an exclamation mark, which is no name. So every rule that a statement goes through gives up
between the two.

## Main definitions

* `Grammar.IsHashBang`: a hash with an exclamation mark right behind it.
* `Grammar.Stumbles`: a rule that gives up there.

## Main statements

* `Document.shebang_of_parse_hashBang`, `Document.exists_print`: the line is kept as it stands.
* `Grammar.stumbles_read`: no statement begins with the two marks.
-/

namespace Scratchpad

/-! ## At the beginning of a source -/

namespace Text.Piece

/-- What has been written stays in front of what is written. -/
theorem exists_written_foldl (pieces : List Piece) (c : Cursor) :
    ∃ more : List Char, (pieces.foldl write c).written.toList = c.written.toList ++ more := by
  induction pieces generalizing c with
  | nil => exact ⟨[], by simp⟩
  | cons p pieces ih =>
    obtain ⟨more, hmore⟩ := ih (write c p)
    obtain ⟨first, hfirst⟩ : ∃ first : List Char, (write c p).written.toList = c.written.toList ++ first := by
      cases p with
      | text s =>
        simp only [write]
        split
        · exact ⟨[], by simp⟩
        · exact ⟨_, by simp only [String.toList_append, List.append_assoc]; rfl⟩
      | line =>
        simp only [write]
        split
        · exact ⟨[], by simp⟩
        · exact ⟨['\n'], by simp⟩
      | indent => exact ⟨[], by simp [write]⟩
      | dedent => exact ⟨[], by simp [write]⟩
    exact ⟨first ++ more, by rw [List.foldl_cons, hmore, hfirst, List.append_assoc]⟩

/-- A layout that begins with a line of its own begins with the characters of that line. -/
theorem exists_render {s : String} (hs : s.isEmpty = false) (pieces : List Piece) :
    ∃ more : List Char, (render (text s :: line :: pieces)).toList = s.toList ++ '\n' :: more := by
  obtain ⟨more, hmore⟩ := exists_written_foldl pieces { written := s.push '\n' }
  refine ⟨more, ?_⟩
  have hwrite : write (write {} (text s)) line = { written := s.push '\n' } := by
    simp [write, hs, String.join]
  rw [render, List.foldl_cons, List.foldl_cons, hwrite, hmore]
  simp

end Text.Piece

namespace TypeScript

namespace Document

/-- The line that names an interpreter is printed first. -/
theorem exists_print {d : Document} {name : String} (h : d.shebang = some name) :
    ∃ more : List Char, d.print.toList = '#' :: '!' :: (name.toList ++ '\n' :: more) := by
  have hempty : ("#!" ++ name).isEmpty = false := by simp
  obtain ⟨more, hmore⟩ := Text.Piece.exists_render hempty (d.items.map Node.statementPieces).flatten
  refine ⟨more, ?_⟩
  rw [print, h]
  simpa using hmore

theorem shebang_of_parse {isModule : Bool} {cs : List Char} {d : Document}
    (h : parse isModule (String.ofList cs) = .ok d) :
    d.shebang = (shebangStop? cs.toArray).map (Source.slice cs.toArray 2) := by
  rw [parse, String.toList_ofList] at h
  dsimp only at h
  split at h
  · cases h
  · split at h
    · cases h
    · cases h
      rfl

/-- Of the line that names an interpreter everything is kept but its two marks. -/
theorem shebang_of_parse_hashBang {isModule : Bool} {tail : List Char} {d : Document}
    (h : parse isModule (String.ofList ('#' :: '!' :: tail)) = .ok d) :
    d.shebang = some (String.ofList (tail.takeWhile (!isLineBreak ·))) := by
  have hstop : shebangStop? ('#' :: '!' :: tail).toArray =
      some (2 + (tail.takeWhile (!isLineBreak ·)).length) := by
    simp [shebangStop?, Source.hasAt]
  have hslice : Source.slice ('#' :: '!' :: tail).toArray 2 (2 + (tail.takeWhile (!isLineBreak ·)).length) =
      String.ofList (tail.takeWhile (!isLineBreak ·)) :=
    slice_of_drop (tail.takeWhile_append_dropWhile (p := (!isLineBreak ·))).symm
  rw [shebang_of_parse h, hstop, Option.map_some, hslice]

end Document

/-! ## Anywhere else -/

namespace Grammar


open Rule

/-- A hash with an exclamation mark right behind it. -/
structure IsHashBang (source : Source) (hash : Token) : Prop where
  lexeme : hash.lexeme = .mark "#"
  next : (scanToken source hash.stop).lexeme = .mark "!"
  start : (scanToken source hash.stop).start = hash.stop
  notices : (scanToken source hash.stop).notices = []

/-- At a hash with an exclamation mark behind it, the rule gives up between the two. -/
def Stumbles {α : Type} (ρ : Reading) (r : Rule α) : Prop :=
  ∀ s : State, IsHashBang s.source s.token →
    ∃ s', r ρ s = .error ⟨s.token.stop, .identifierExpected⟩ s' ∧ s'.token.lexeme = .mark "!"

variable {ρ : Reading}

section

variable {α β : Type} {r : Rule α} {f : α → Rule β}

theorem Stumbles.bind (h : Stumbles ρ r) : Stumbles ρ (r >>= f) := by
  intro s hs
  obtain ⟨s', hr, hbang⟩ := h s hs
  exact ⟨s', by rw [run_bind, hr], hbang⟩

/-- What leaves the state as it is does not get behind the hash. -/
theorem Stumbles.behind (h : ∀ s, IsHashBang s.source s.token → ∃ a, r ρ s = .ok a s ∧ Stumbles ρ (f a)) :
    Stumbles ρ (r >>= f) := by
  intro s hs
  obtain ⟨a, hr, ha⟩ := h s hs
  obtain ⟨s', hf, hbang⟩ := ha s hs
  exact ⟨s', by rw [run_bind, hr]; exact hf, hbang⟩

theorem Stumbles.look {a : State → α} (hr : ∀ s, r ρ s = .ok (a s) s) (h : ∀ b, Stumbles ρ (f b)) :
    Stumbles ρ (r >>= f) :=
  .behind fun s _ => ⟨a s, hr s, h (a s)⟩

theorem Stumbles.eatWord {f : Bool → Rule β} {w : String} (h : Stumbles ρ (f false)) :
    Stumbles ρ (eatWord w >>= f) :=
  .behind fun s hs => ⟨false, run_eatWord_of_not ρ s (by rw [hs.lexeme]; rfl), h⟩

theorem Stumbles.modify {f : Unit → Rule β} {g : State → State}
    (hg : ∀ s, (g s).source = s.source ∧ (g s).token = s.token) (h : Stumbles ρ (f ())) :
    Stumbles ρ (modify g >>= f) := by
  intro s hs
  obtain ⟨hsource, htoken⟩ := hg s
  rw [← hsource, ← htoken] at hs
  obtain ⟨s', hf, hbang⟩ := h (g s) hs
  exact ⟨s', htoken ▸ hf, hbang⟩

theorem Stumbles.within {change : Mode → Mode} (h : Stumbles ρ r) : Stumbles ρ (within change r) := by
  intro s hs
  obtain ⟨s', hr, hbang⟩ := h { s with mode := change s.mode } hs
  exact ⟨{ s' with mode := s.mode }, by rw [run_within, hr], hbang⟩

end

/-! ### From the name of a private member up to a statement -/

theorem stumbles_privateName : Stumbles ρ privateName := by
  intro s hs
  simp [privateName, run_bind, run_advance ρ s rfl hs.notices, revealed, hs.next, hs.start, failHere, fail]
  exact ⟨_, rfl, hs.next⟩

theorem stumbles_primary : Stumbles ρ primary := by
  refine .behind fun s hs => ⟨_, run_current ρ s, .behind fun s' _ => ⟨_, run_get ρ s', ?_⟩⟩
  rw [hs.lexeme]
  exact stumbles_privateName

theorem stumbles_memberOrNew (isNew : Bool) : Stumbles ρ (memberOrNew isNew) := by
  exact .look (run_here ρ) fun _ => .eatWord (.eatWord (.eatWord (.bind stumbles_primary)))

theorem stumbles_leftHandSide : Stumbles ρ leftHandSide := by
  exact .look (run_here ρ) fun _ => .eatWord (.eatWord (.bind (stumbles_memberOrNew true)))

theorem stumbles_unaryRule : Stumbles ρ unaryRule := by
  refine .behind fun s hs => ⟨_, run_current ρ s, ?_⟩
  rw [hs.lexeme]
  exact .bind stumbles_leftHandSide

theorem stumbles_firstOperand (h : Stumbles ρ (goal .unary)) : Stumbles ρ firstOperand := by
  intro s hs
  obtain ⟨s', hr, hbang⟩ := h s hs
  refine ⟨s', ?_, hbang⟩
  rw [firstOperand, run_tryCatch, hr]
  simp [atBinaryOperator, run_bind, hbang, binaryPrecedence]
  rfl

theorem stumbles_plainAssignment (h : Stumbles ρ (goal .unary)) : Stumbles ρ plainAssignment := by
  have hconditional : Stumbles ρ conditional := .bind (stumbles_firstOperand h)
  refine .look (run_mode ρ) fun m => .behind fun s hs => ⟨false, by rw [run_atWord, hs.lexeme]; rfl, ?_⟩
  rw [Bool.and_false]
  exact .look (run_here ρ) fun _ => .look (run_atName ρ) fun _ => .look (run_atMark ρ · _) fun _ =>
    .look (run_atWord ρ · _) fun _ => .look (run_atWord ρ · _) fun _ =>
      .modify (fun _ => ⟨rfl, rfl⟩) (.bind hconditional)

theorem stumbles_assignment (h : Stumbles ρ (goal .unary)) : Stumbles ρ assignment := by
  refine .behind fun s hs => ⟨_, run_atMark ρ s _, ?_⟩
  rw [hs.lexeme]
  exact stumbles_plainAssignment h

theorem stumbles_expressionStatement (h : Stumbles ρ (goal .assignment)) (ds : List Node) :
    Stumbles ρ (expressionStatement ds) :=
  .look (run_here ρ) fun _ => .bind (.within (.look (run_here ρ) fun _ => .bind h))

/-- The hash begins none of the statements that are known by their first word or mark. -/
theorem run_markedStatement_of_isHashBang {s : State} (hs : IsHashBang s.source s.token) (p : Nat)
    (mayDeclare : Bool) (ds : List Node) : markedStatement p mayDeclare ds ρ s = .ok none s := by
  have hfollows : nameFollowsOnLine ρ s = .ok _ s := rfl
  rw [markedStatement, run_bind_of_ok (run_current ρ s), run_bind_of_ok (run_ahead ρ s),
    run_bind_of_ok hfollows, hs.lexeme]
  rfl

theorem stumbles_statement (h : Stumbles ρ (goal .assignment)) (mayDeclare isTopLevel : Bool)
    (moduleItem : List Node → Rule Node) : Stumbles ρ (statement mayDeclare isTopLevel moduleItem) := by
  have hplain (p : Nat) : Stumbles ρ (plainStatement p mayDeclare []) :=
    .behind fun s hs => ⟨none, run_markedStatement_of_isHashBang hs p mayDeclare [],
      stumbles_expressionStatement h []⟩
  refine .within (.look (run_here ρ) fun p => .behind fun s hs => ⟨[], run_decorators ρ s ?_, ?_⟩)
  · rw [hs.lexeme]
    rfl
  · refine .behind fun s hs => ⟨false, ?_, hplain p⟩
    rw [run_atWords, hs.lexeme]
    rfl

/-- No statement begins with the two marks. -/
theorem stumbles_read (depth : Nat) (mayDeclare isTopLevel : Bool) :
    Stumbles { run := read (depth + 3) } (goal (.statement mayDeclare isTopLevel)) :=
  have hunary : Stumbles { run := read (depth + 1) } (goal .unary) :=
    @stumbles_unaryRule { run := read depth }
  have hassignment : Stumbles { run := read (depth + 2) } (goal .assignment) := stumbles_assignment hunary
  stumbles_statement hassignment mayDeclare isTopLevel moduleItem

end Grammar

end TypeScript

end Scratchpad
