import Scratchpad.Machine.Shell.Builtin
import Scratchpad.Machine.Shell.Pattern
import Scratchpad.Machine.Shell.Reading
import Scratchpad.Machine.Utility

/-!
# Carrying out scripts

Words are expanded, redirections are followed, and then a function, a command of the shell or a program does
what the words say. All of it happens in an instant, apart from programs that take their time. A script that
goes on for longer than the fuel lasts counts as endless.

## Main definitions

* `Mark`, `fields`: what comes of expanding a word, and how it falls into words.
* `perform`: carries out a command.
* `lines`: carries out a script.
* `execute`: runs a program, which may be another shell.
-/

namespace Scratchpad.Machine.Shell

/-! ## Words -/

/-- What comes of expanding a word. -/
inductive Mark where
  /-- A character, which may have been quoted, and which may separate words. -/
  | char (c : Char) (isQuoted mayCut : Bool)
  /-- There is a word even if it is empty. -/
  | presence
  /-- A word ends. -/
  | cut
deriving DecidableEq, Inhabited, Repr

/-- The marks of a text. -/
def marksOf (isQuoted mayCut : Bool) (s : String) : List Mark := s.toList.map fun c => .char c isQuoted mayCut

/-- The words that marks fall into, given what there is of the present one, the latest character first. -/
def fieldsFrom (separators : List Char) : Option Pattern → List Mark → List Pattern
  | field, [] => (field.map List.reverse).toList
  | field, .presence :: marks => fieldsFrom separators (some (field.getD [])) marks
  | field, .cut :: marks => (field.map List.reverse).toList ++ fieldsFrom separators none marks
  | field, .char c isQuoted mayCut :: marks =>
    if mayCut && separators.contains c then
      if c.isWhitespace then (field.map List.reverse).toList ++ fieldsFrom separators none marks
      else (field.getD []).reverse :: fieldsFrom separators none marks
    else fieldsFrom separators (some ((c, isQuoted) :: field.getD [])) marks

/-- The characters that separate words. -/
def separators (s : State) : List Char := ((s.assigned.get? "IFS").getD " \t\n").toList

/-- The words that marks fall into. -/
def fields (s : State) (marks : List Mark) : List Pattern := fieldsFrom (separators s) none marks

/-- The text of marks that make up a single word. -/
def textOf (marks : List Mark) : String :=
  String.ofList (marks.filterMap fun m =>
    match m with
    | .char c _ _ => some c
    | .presence => none
    | .cut => some ' ')

/-- The pattern of marks that make up a single word. -/
def patternOf (marks : List Mark) : Pattern :=
  marks.filterMap fun m =>
    match m with
    | .char c isQuoted _ => some (c, isQuoted)
    | _ => none

/-- The paths that fit a pattern, or the text of the pattern if there are none. Only the last name of a path
may be wild. -/
def paths (s : State) (p : Pattern) : List String :=
  if !p.isWild then [p.text]
  else
    let last := (p.reverse.takeWhile (·.1 != '/')).reverse
    let folder := Pattern.text (p.take (p.length - last.length))
    match s.tree.locate s.here (if folder.isEmpty then "." else folder) with
    | .error _ => [p.text]
    | .ok way =>
      let isHidden (name : String) : Bool := name.toList.head? == some '.'
      let names := (s.tree.namesIn way).filter fun name =>
        Pattern.fits last name && (!isHidden name || (last.head?.map (·.1)) == some '.')
      if names.isEmpty then [p.text] else names.map fun name => folder ++ name

/-- Bytes as a text, without the line feeds at their end. -/
def substituted (bytes : List UInt8) : String :=
  String.ofList ((Utf8.decode bytes).toList.reverse.dropWhile (· == '\n')).reverse

/-- Whether a word holds the output of a command. -/
def hasOutput (w : Word) : Bool :=
  w.any fun p =>
    match p with
    | .output .. => true
    | _ => false

/-! ## Programs -/

/-- What a utility does in a shell. -/
def useUtility (s : State) (f : Utility.Run) (arguments : List String) : State :=
  let r := f ⟨arguments, s.environment, s.input, s.tree, s.here⟩
  let s := r.prints.foldl (fun s (channel, bytes) =>
    s.print (match channel with | .standardOutput => 1 | .standardError => 2) bytes) s
  { s with
    tree := r.tree.getD s.tree
    now := s.now + r.duration
    status := r.code
    input := if r.takesInput then [] else s.input
    flow := if r.isEndless then .endless else s.flow }

/-- The names under which there are shells. -/
def shells : List String := ["sh", "dash", "bash"]

/-- The state in which a shell begins that is started as a program. -/
def State.fresh (s : State) (name : String) (arguments : List String) : State :=
  let given := s.environment.insert "IFS" " \t\n"
  { name := name, arguments := arguments, number := s.number + 1, tree := s.tree, here := s.here,
    assigned := given, exported := s.environment.bindings.map (·.1), now := s.now, prints := s.prints,
    collected := s.collected, targets := s.targets, input := s.input }

/-- The state after a program has ended. A signal that ends the program does not end the shell, but the user
may be told. -/
def State.outlived (s : State) : State :=
  match s.flow with
  | .killed signal =>
    let told := if signal == 9 then "Killed\n" else if signal == 15 then "Terminated\n" else ""
    let after : State := { s with flow := .onward, status := UInt8.ofNat (128 + signal) }
    after.printText 2 told
  | _ => s

/-- What the arguments of a shell say: a script, how it is called, and its arguments. Without a script, there
is the path of a file, or the input is the script. -/
structure Opening where
  /-- Whether the script is missing that the arguments promise. -/
  isBroken : Bool := false
  script : Option String
  path : Option String
  name : String
  arguments : List String
  endsOnFailure : Bool
deriving DecidableEq, Inhabited, Repr

/-- What the arguments of a shell say. -/
def opening (called : String) (endsOnFailure : Bool) : List String → Opening
  | [] => ⟨false, none, none, called, [], endsOnFailure⟩
  | word :: rest =>
    match word.toList with
    | '-' :: options =>
      let endsOnFailure := endsOnFailure || options.contains 'e'
      if options.contains 'c' then
        match rest with
        | [] => ⟨true, none, none, called, [], endsOnFailure⟩
        | text :: rest => ⟨false, some text, none, rest.headD called, rest.drop 1, endsOnFailure⟩
      else opening called endsOnFailure rest
    | _ => ⟨false, none, some word, word, rest, endsOnFailure⟩

/-- Where a descriptor leads from now on. -/
def State.lead (s : State) (descriptor : Nat) (target : Option Target) : State :=
  let others := s.targets.filter (·.1 != descriptor)
  { s with targets := (target.map fun t => (descriptor, t)).toList ++ others }

/-- Follows a redirection. The answer tells whether that was possible. -/
def State.redirect (s : State) (descriptor : Nat) (direction : Direction) (path : String) : Bool × State :=
  match direction with
  | .text => (true, { s with input := Utf8.encode path })
  | .duplicate =>
    if path == "-" then
      (true, if descriptor == 0 then { s with input := [] } else s.lead descriptor none)
    else
      match path.toNat? with
      | none => (false, s.complain ("Syntax error: Bad fd number") 2)
      | some n =>
        match s.targets.lookup n with
        | some target => (true, s.lead descriptor (some target))
        | none => if n == 0 then (true, s) else (false, s.complain (path ++ ": Bad file descriptor") 2)
  | .read =>
    match s.tree.read s.here path with
    | .ok bytes => (true, { s with input := bytes })
    | .error .missing => (false, s.complain ("cannot open " ++ path ++ ": No such file") 2)
    | .error fault => (false, s.complain ("cannot open " ++ path ++ ": " ++ fault.name) 2)
  | .write | .append =>
    if path == "/dev/stdout" then (true, s.lead descriptor (s.targets.lookup 1))
    else if path == "/dev/stderr" then (true, s.lead descriptor (s.targets.lookup 2))
    else
      match s.tree.write s.here path [] (direction == .append), s.tree.locate s.here path with
      | .ok tree, .ok way =>
        let target := if (tree.find? way).any fun e => e == .sink || e == .zeros then Target.nowhere else .file way
        let opened : State := { s with tree := tree }
        (true, opened.lead descriptor (some target))
      | .error .missing, _ => (false, s.complain ("cannot create " ++ path ++ ": Directory nonexistent") 2)
      | .error fault, _ | _, .error fault =>
        (false, s.complain ("cannot create " ++ path ++ ": " ++ fault.name) 2)

/-- Variables as they were before some of them were set for a single command. -/
def State.restore (s before : State) (names : List String) : State :=
  names.foldl (fun s name =>
    let s := s.forget name
    let s := match before.assigned.get? name with
      | some value => s.assign name value
      | none => s
    if before.exported.contains name then s.offer name else s) s

/-! ## Commands -/

mutual

/-- What comes of expanding a word. -/
def marks : Nat → Word → State → List Mark × State
  | 0, _, s => ([], s)
  | fuel + 1, [.text "" true, .parameter "@" true], s =>
    if s.arguments.isEmpty then ([], s) else piece fuel (.parameter "@" true) s
  | fuel + 1, word, s =>
    word.foldl (fun (ms, s) p =>
      let (more, s) := piece fuel p s
      (ms ++ more, s)) (([] : List Mark), s)

/-- What comes of expanding a piece of a word. -/
def piece : Nat → Piece → State → List Mark × State
  | 0, _, s => ([], s)
  | fuel + 1, p, s =>
    match p with
    | .text t isQuoted => (if t.isEmpty then [.presence] else marksOf isQuoted false t, s)
    | .parameter name isQuoted =>
      if name == "@" || name == "*" && !isQuoted then
        (((s.arguments.map fun a => .presence :: marksOf isQuoted (!isQuoted) a).intersperse [.cut]).flatten, s)
      else (marksOf isQuoted (!isQuoted) ((s.value? name).getD ""), s)
    | .alternative name kind isEmptyNone word isQuoted =>
      let value := (s.value? name).filter fun v => !isEmptyNone || !v.isEmpty
      let here (v : String) : List Mark := marksOf isQuoted (!isQuoted) v
      let loosened (ms : List Mark) : List Mark :=
        ms.map fun m =>
          match m with
          | .char c q _ => .char c (q || isQuoted) (!q && !isQuoted)
          | m => m
      match kind, value with
      | .standIn, some v | .assign, some v => (here v, s)
      | .replace, none => ([], s)
      | .standIn, none | .replace, some _ =>
        let (ms, s) := marks fuel word s
        (loosened ms, s)
      | .assign, none =>
        let (ms, s) := marks fuel word s
        (loosened ms, s.assign name (textOf ms))
    | .size name => (marksOf false false (toString ((s.value? name).getD "").length), s)
    | .output c isQuoted =>
      let inner := perform fuel c s.collecting
      let out := substituted inner.output
      (marksOf isQuoted (!isQuoted) out, { s.after inner with collected := s.collected })
    | .arithmetic expression isQuoted =>
      let (ms, s) := marks fuel expression s
      let text := textOf ms
      let value (name : String) : Int := (((s.value? name).bind Format.numberOf?)).getD 0
      match Arithmetic.value value text with
      | .ok (n, bindings) =>
        let s := bindings.reverse.foldl (fun s (name, n) => s.assign name (toString n)) s
        (marksOf isQuoted (!isQuoted) (toString n), s)
      | .error fault =>
        let told := s.complain ("arithmetic expression: " ++ fault.message ++ ": " ++ Reader.inQuotes text) 2
        ([], { told with flow := .exiting })

/-- The words that come of expanding words. -/
def words : Nat → List Word → State → List String × State
  | 0, _, s => ([], s)
  | fuel + 1, ws, s =>
    ws.foldl (fun (out, s) w =>
      let (ms, s) := marks fuel w s
      (out ++ (fields s ms).flatMap (paths s), s)) (([] : List String), s)

/-- Follows redirections, as long as that is possible. -/
def redirectAll : Nat → List Redirection → State → Bool × State
  | 0, _, s => (false, s)
  | fuel + 1, rs, s =>
    rs.foldl (fun (isPossible, s) (.mk descriptor direction word) =>
      if !isPossible then (false, s)
      else
        let (ms, s) := marks fuel word s
        s.redirect descriptor direction (textOf ms)) (true, s)

/-- Sets variables. -/
def assignAll : Nat → List (String × Word) → State → State
  | 0, _, s => s
  | fuel + 1, bindings, s =>
    bindings.foldl (fun s (name, word) =>
      let (ms, s) := marks fuel word s
      s.assign name (textOf ms)) s

/-- Carries out a command. -/
def perform : Nat → Command → State → State
  | 0, _, s => { s with flow := .endless }
  | fuel + 1, c, s =>
    if s.flow != .onward then s
    else
      match c with
      | .nothing => s
      | .simple line bindings ws rs =>
        let s := simple fuel bindings ws rs { s with line := line }
        if s.status != 0 && s.endsOnFailure && s.flow == .onward then { s with flow := .exiting } else s
      | .sequence first second => perform fuel second (perform fuel first s)
      | .both first second =>
        let s := condition fuel first s
        if s.status == 0 then perform fuel second s else s
      | .either first second =>
        let s := condition fuel first s
        if s.status == 0 then s else perform fuel second s
      | .negation c =>
        let s := condition fuel c s
        if s.flow == .onward then s.withStatus (if s.status == 0 then 1 else 0) else s
      | .pipeline first second =>
        let writer := perform fuel first s.collecting
        let start := if writer.flow == .endless then s.now else writer.now
        let joined : State :=
          { s with tree := writer.tree, prints := writer.prints, now := start, input := writer.output }
        let reader := perform fuel second joined
        { s.after reader with input := s.input }
      | .background c =>
        let inner := perform fuel c { s with input := [] }
        let number := s.number + s.jobs.length + 1
        { s with
          tree := inner.tree, prints := inner.prints, collected := inner.collected, status := 0
          jobs := s.jobs ++ [⟨number, inner.now, inner.status⟩] }
      | .branch c thenPart elsePart =>
        let s := condition fuel c s
        if s.status == 0 then perform fuel thenPart s else perform fuel elsePart (s.withStatus 0)
      | .loop isUntil c body => loop fuel isUntil c body 0 s
      | .forEach name ws body =>
        match ws with
        | none => rounds fuel name s.arguments body (s.withStatus 0)
        | some ws =>
          let (values, s) := words fuel ws s
          rounds fuel name values body (s.withStatus 0)
      | .choice word clauses =>
        let (ms, s) := marks fuel word s
        let (chosen, s) := clauses.foldl (fun (chosen, s) (patterns, c) =>
          match chosen with
          | some c => (some c, s)
          | none =>
            let (isFitting, s) := patterns.foldl (fun (isFitting, s) p =>
              let (fitting, s) := marks fuel p s
              (isFitting || Pattern.fits (patternOf fitting) (textOf ms), s)) (false, s)
            (if isFitting then some c else none, s)) ((none : Option Command), s)
        match chosen with
        | some c => perform fuel c (s.withStatus 0)
        | none => s.withStatus 0
      | .apart c => s.after (perform fuel c s)
      | .redirected c rs =>
        let (isPossible, opened) := redirectAll fuel rs s
        if isPossible then
          let after := perform fuel c opened
          { after with targets := s.targets, input := if redirectsInput rs then s.input else after.input }
        else { opened with targets := s.targets, input := s.input }
      | .define name body => { s with functions := (name, body) :: s.functions, status := 0 }
where
  /-- Whether redirections replace the input. -/
  redirectsInput (rs : List Redirection) : Bool := rs.any fun (.mk descriptor _ _) => descriptor == 0

/-- Carries out a command whose failure does not end the script. -/
def condition : Nat → Command → State → State
  | 0, _, s => { s with flow := .endless }
  | fuel + 1, c, s =>
    { perform fuel c { s with endsOnFailure := false } with endsOnFailure := s.endsOnFailure }

/-- Carries out a loop, given the code of its last round. -/
def loop : Nat → Bool → Command → Command → UInt8 → State → State
  | 0, _, _, _, _, s => { s with flow := .endless }
  | fuel + 1, isUntil, c, body, last, s =>
    let s := condition fuel c s
    if s.flow != .onward then s
    else if (s.status == 0) == isUntil then s.withStatus last
    else
      let s := perform fuel body s
      match s.flow with
      | .onward => loop fuel isUntil c body s.status s
      | .leaving count goesOn =>
        if 1 < count then { s with flow := .leaving (count - 1) goesOn }
        else if goesOn then loop fuel isUntil c body s.status { s with flow := .onward }
        else { s with flow := .onward }
      | _ => s

/-- Carries out the body of a loop over values. -/
def rounds : Nat → String → List String → Command → State → State
  | 0, _, _, _, s => { s with flow := .endless }
  | _ + 1, _, [], _, s => s
  | fuel + 1, name, value :: values, body, s =>
    let s := perform fuel body (s.assign name value)
    match s.flow with
    | .onward => rounds fuel name values body s
    | .leaving count goesOn =>
      if 1 < count then { s with flow := .leaving (count - 1) goesOn }
      else if goesOn then rounds fuel name values body { s with flow := .onward }
      else { s with flow := .onward }
    | _ => s

/-- Carries out a simple command. -/
def simple : Nat → List (String × Word) → List Word → List Redirection → State → State
  | 0, _, _, _, s => { s with flow := .endless }
  | fuel + 1, bindings, ws, rs, s =>
    let before := s
    let (called, s) := words fuel ws s
    if s.flow != .onward then s
    else
      let (isPossible, s) := redirectAll fuel rs s
      if !isPossible then { s with targets := before.targets, input := before.input }
      else
        let keepsInput := rs.any fun (.mk descriptor _ _) => descriptor == 0
        let back (after : State) : State :=
          { after with targets := before.targets, input := if keepsInput then before.input else after.input }
        match called with
        | [] =>
          let s := assignAll fuel bindings s
          let isCode := (bindings.any fun (_, w) => hasOutput w) || ws.any hasOutput
          back (if isCode || s.flow != .onward then s else s.withStatus 0)
        | ["exec"] => s.withStatus 0
        | name :: arguments =>
          let names := bindings.map (·.1)
          let set := assignAll fuel bindings s
          let set := names.foldl (fun s name => s.offer name) set
          let after := invoke fuel name arguments set
          back (if names.isEmpty then after else after.restore s names)

/-- Does what words say. -/
def invoke : Nat → String → List String → State → State
  | 0, _, _, s => { s with flow := .endless }
  | fuel + 1, name, arguments, s =>
    match s.functions.lookup name with
    | some body =>
      let inner := perform fuel body { s with arguments := arguments }
      { inner with arguments := s.arguments, flow := if inner.flow == .returning then .onward else inner.flow }
    | none =>
      match name, arguments with
      | "eval", words =>
        let text := (" ".intercalate words).toList
        lines fuel text text (s.withStatus 0)
      | "exec", program :: arguments =>
        let s := external fuel "exec: " program arguments s
        if s.flow == .onward then { s with flow := .exiting } else s
      | "command", "-v" :: name :: _ =>
        if (Builtin.find? name).isSome then (s.withStatus 0).printText 1 (name ++ "\n")
        else
          match State.program s.tree s.here s.assigned name with
          | .ok way => (s.withStatus 0).printText 1 ("/" ++ "/".intercalate way ++ "\n")
          | .error _ => s.withStatus 127
      | "command", name :: arguments => invoke fuel name arguments { s with functions := [] }
      | ".", path :: _ =>
        match s.tree.read s.here path with
        | .ok bytes =>
          let text := Utf8.characters bytes
          let inner := lines fuel text text (s.withStatus 0)
          { inner with flow := if inner.flow == .returning then .onward else inner.flow }
        | .error _ => { s.complain (".: cannot open " ++ path ++ ": No such file") 2 with flow := .exiting }
      | name, arguments =>
        match Builtin.find? name with
        | some f => trapped fuel (f arguments s)
        | none => (external fuel "" name arguments s).outlived

/-- A signal that is trapped does not end the shell. -/
def trapped : Nat → State → State
  | 0, s => { s with flow := .endless }
  | fuel + 1, s =>
    match s.flow with
    | .killed signal =>
      match if signal == 9 then none else s.traps.lookup signal with
      | none => s
      | some text => lines fuel text.toList text.toList { s with flow := .onward }
    | _ => s

/-- Carries out a script and, at its end, what is trapped there. -/
def script : Nat → List Char → State → State
  | 0, _, s => { s with flow := .endless }
  | fuel + 1, text, s =>
    let s := lines fuel text text s
    match s.flow, s.traps.lookup 0 with
    | .killed _, _ | .endless, _ | _, none => s
    | _, some trap =>
      let after := lines fuel trap.toList trap.toList { s with flow := .onward, traps := [] }
      if after.flow == .onward then { after with status := s.status } else after

/-- Looks for a program and runs it. A complaint says on whose behalf it was looked for. -/
def external : Nat → String → String → List String → State → State
  | 0, _, _, _, s => { s with flow := .endless }
  | fuel + 1, onBehalf, name, arguments, s =>
    match State.program s.tree s.here s.assigned name with
    | .error .denied => s.complain (onBehalf ++ name ++ ": Permission denied") 126
    | .error _ => s.complain (onBehalf ++ name ++ ": not found") 127
    | .ok way => execute fuel (way.getLastD "") name arguments s

/-- Runs a program of the machine. -/
def execute : Nat → String → String → List String → State → State
  | 0, _, _, _, s => { s with flow := .endless }
  | fuel + 1, program, called, arguments, s =>
    if shells.contains program then
      let o := opening called false arguments
      let inner := { s.fresh o.name o.arguments with endsOnFailure := o.endsOnFailure }
      if o.isBroken then (s.printText 2 (called ++ ": 0: -c requires an argument\n")).withStatus 2
      else match o.script, o.path with
      | some text, _ => s.after (script fuel text.toList inner)
      | none, some path =>
        match s.tree.read s.here path with
        | .ok bytes =>
          s.after (script fuel (Utf8.characters bytes) inner)
        | .error fault =>
          let reason := if fault == .missing then "No such file" else fault.name
          (s.printText 2 (called ++ ": 0: cannot open " ++ path ++ ": " ++ reason ++ "\n")).withStatus
            (if fault == .missing then 127 else 126)
      | none, none =>
        s.after (script fuel (Utf8.characters s.input) { inner with input := [] })
    else if program == "env" then
      match arguments with
      | [] => useUtility s (fun c => Utility.printenv { c with arguments := [] }) []
      | "-i" :: rest => execute fuel program called rest { s with exported := [] }
      | word :: rest =>
        match Builtin.bound word with
        | (name, some value) =>
          let inner := execute fuel program called rest ((s.assign name value).offer name)
          inner.restore s [name]
        | (name, none) =>
          match State.program s.tree s.here s.assigned name with
          | .ok way => execute fuel (way.getLastD "") name rest s
          | .error fault =>
            (s.printText 2 ("env: '" ++ name ++ "': " ++ fault.name ++ "\n")).withStatus
              (if fault == .denied then 126 else 127)
    else
      match Utility.find? program with
      | some f => useUtility s f arguments
      | none => s.withStatus 127

/-- Carries out the rest of a script, line by line. -/
def lines : Nat → List Char → List Char → State → State
  | 0, _, _, s => { s with flow := .endless }
  | fuel + 1, whole, rest, s =>
    if s.flow != .onward then s
    else
      match Reader.commandLine? whole rest with
      | .error mistake =>
        let line := 1 + (whole.count '\n' - rest.count '\n')
        { ({ s with line := line } : State).complain mistake.message 2 with flow := .exiting }
      | .ok none => s
      | .ok (some (c, rest)) => lines fuel whole rest (perform fuel c s)

end

/-- How many steps a script may take, one within another. -/
def patience : Nat := 20000

end Scratchpad.Machine.Shell
