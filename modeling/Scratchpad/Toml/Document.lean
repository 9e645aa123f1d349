import Scratchpad.Toml.Scalar

/-!
# Documents

A document is a table. A setting adds an entry to the table of the last heading, or to a table further in
if its key is dotted. Tables on the way are made when they are missing. What exists is never replaced, and
a table that has its own heading or stands within a value is not extended from elsewhere.

## Main definitions

* `Entries.within`: changes the table to which names lead.
* `Expression.value`: the value of an expression.
* `Document.ofText`: the table of a text.
-/

namespace Scratchpad.Toml

/-- A name in a key, and where it stands. -/
structure Name where
  text : String
  span : Span
deriving DecidableEq, Inhabited, Repr

/-- The names of a key. -/
def namesOf (key : List Token) : Except Misfit (List Name) :=
  key.mapM fun t => do return ⟨← nameOf t, t.span⟩

/-- A key takes at least one name, of which the last is the name of the entry. -/
def splitKey (names : List Name) : List Name × Name :=
  (names.dropLast, names.getLastD ⟨"", ⟨0, 0⟩⟩)

namespace Entries

/-- Puts a value under a key, in place of an earlier one. -/
def put (key : String) (v : Span × Value) : Entries → Entries
  | [] => [(key, v)]
  | (k, w) :: rest =>
    if key = k then (key, v) :: rest
    else if key < k then (key, v) :: (k, w) :: rest
    else (k, w) :: put key v rest

/-- Changes the table to which names lead, from a table of an origin. Whether the names are those of a
dotted key decides which tables may be passed through. -/
def within (isDotted : Bool) (change : Origin → Entries → Except Misfit Entries) :
    (names : List Name) → Origin → Entries → Except Misfit Entries
  | [], origin, entries => change origin entries
  | n :: names, _, entries =>
    match entries.lookup n.text with
    | none => do
      let origin : Origin := if isDotted then .dotted else .implied
      let inner ← within isDotted change names origin []
      return put n.text (n.span, .table origin inner) entries
    | some (span, .table origin inner) => do
      if origin = .inline then throw ⟨.notExtensible (Value.table origin []).type, n.span⟩
      if isDotted && origin = .headed then throw ⟨.keyTwice, n.span⟩
      let inner ← within isDotted change names origin inner
      return put n.text (span, .table origin inner) entries
    | some (span, .list true items) =>
      match items.getLast? with
      | some (itemSpan, .table origin inner) => do
        let inner ← within isDotted change names origin inner
        return put n.text (span, .list true (items.dropLast ++ [(itemSpan, .table origin inner)])) entries
      | _ => throw ⟨.notExtensible (Value.list true []).type, n.span⟩
    | some (_, v) => throw ⟨.notExtensible v.type, n.span⟩

/-- Adds an entry to a table, which must be one of dotted keys if and only if the key is dotted. -/
def addTo (isDotted : Bool) (n : Name) (v : Span × Value) (origin : Origin) (entries : Entries) :
    Except Misfit Entries :=
  if isDotted != (origin == .dotted) || (entries.lookup n.text).isSome then .error ⟨.keyTwice, n.span⟩
  else .ok (put n.text v entries)

/-- Adds an entry under a key. -/
def set (names : List Name) (v : Span × Value) (origin : Origin) (entries : Entries) :
    Except Misfit Entries :=
  let (path, leaf) := splitKey names
  within true (addTo (!path.isEmpty) leaf v) path origin entries

end Entries

/-! ## Expressions -/

/-- The stretch in which an expression stands. -/
def Expression.span : Expression → Span
  | scalar t => t.span
  | list span _ => span
  | table span _ => span

mutual

/-- The value of an expression. -/
def Expression.value : Expression → Except Misfit Value
  | .scalar t => scalarOf t
  | .list _ items => do return .list false (← Expression.values items)
  | .table _ settings => do return .table .inline (← Expression.entries settings [])

/-- The values of expressions. -/
def Expression.values : List Expression → Except Misfit (List (Span × Value))
  | [] => .ok []
  | e :: es => do
    let v ← e.value
    return (e.span, v) :: (← Expression.values es)

/-- The entries of a table that stands within a value, added to those so far. -/
def Expression.entries : List (List Token × Expression) → Entries → Except Misfit Entries
  | [], entries => .ok entries
  | (key, e) :: rest, entries => do
    let names ← namesOf key
    let v ← e.value
    Expression.entries rest (← entries.set names (e.span, v) .headed)

end

/-! ## Statements -/

/-- The table so far, and the names of the last heading. -/
structure Document where
  entries : Entries
  current : List Name
deriving Inhabited

namespace Document

/-- The table that has a heading now. It may have been passed through before, but not made. -/
def openTable (n : Name) (span : Span) (_ : Origin) (entries : Entries) : Except Misfit Entries :=
  match entries.lookup n.text with
  | none => .ok (entries.put n.text (span, .table .headed []))
  | some (_, .table .implied inner) => .ok (entries.put n.text (span, .table .headed inner))
  | some _ => .error ⟨.keyTwice, n.span⟩

/-- One more of the tables of a heading. -/
def openItem (n : Name) (span : Span) (_ : Origin) (entries : Entries) : Except Misfit Entries :=
  match entries.lookup n.text with
  | none => .ok (entries.put n.text (span, .list true [(span, .table .headed [])]))
  | some (first, .list true items) =>
    .ok (entries.put n.text (first, .list true (items ++ [(span, .table .headed [])])))
  | some _ => .error ⟨.keyTwice, n.span⟩

/-- Takes one statement. -/
def add (d : Document) : Statement → Except Misfit Document
  | .heading span ofMany key => do
    let names ← namesOf key
    let (path, leaf) := splitKey names
    let change := if ofMany then openItem leaf span else openTable leaf span
    return ⟨← d.entries.within false change path .headed, names⟩
  | .setting key e => do
    let names ← namesOf key
    let v ← e.value
    return { d with entries := ← d.entries.within false (fun o es => es.set names (e.span, v) o) d.current .headed }

/-- The table of a text. -/
def ofText (cs : List Char) : Except Misfit Entries := do
  let statements ← Statement.ofTokens (Token.ofText cs)
  return (← statements.foldlM add (⟨[], []⟩ : Document)).entries

end Document

end Scratchpad.Toml
