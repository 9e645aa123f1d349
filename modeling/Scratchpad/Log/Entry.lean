import Scratchpad.Log.Method
import Scratchpad.Number.Digits

/-!
# Entries

An entry is one line of output as it is shown to the user: the method that it comes from, the line of
source that printed it if that is known, and its content. An entry is read from a line of a stream by
removing what the stream adds: a carriage return at the end, the tag at the beginning, and the first
marker. A marker whose number is no line of a source is part of the content.

## Main definitions

* `Entry`, `Entry.isError`, `Entry.ofFailure`: entries, and the one that tells of a failure.
* `splitTag`, `splitMarker`: a line without its tag, a text without its marker.
* `Entry.ofLine`: the entry of a line of a stream.

## Main statements

* `afterOpening?_append`, `eq_append_of_afterOpening?`: what a text begins with can be taken off and put
  back.
-/

namespace Scratchpad.Log

open Number

/-- One line of output as it is shown to the user. -/
structure Entry where
  method : Method
  /-- The line of source that printed it. -/
  line : Option UInt32
  content : String
deriving DecidableEq, Inhabited, Repr

/-- Whether an entry tells of an error. -/
def Entry.isError (e : Entry) : Bool := e.method == .error

/-- The entry that tells the user why a run failed. -/
def Entry.ofFailure (message : String) : Entry :=
  ⟨.error, none, "[Error] " ++ message⟩

/-- What follows the beginning of a text. -/
def afterOpening? : (opening : List Char) → List Char → Option (List Char)
  | [], cs => some cs
  | _ :: _, [] => none
  | o :: os, c :: cs => if o = c then afterOpening? os cs else none

/-- A text without the separator at its beginning, if there is one. -/
def afterSeparator (cs : List Char) : List Char :=
  (afterOpening? [separator] cs).getD cs

/-- The method of a line, and the line without its tag and the separator behind it. A line without a tag is
plain output. -/
def splitTag (cs : List Char) : Method × List Char :=
  let tagged := Method.all.findSome? fun m => (afterOpening? m.tag.toList cs).map fun rest => (m, rest)
  match tagged with
  | some (m, rest) => (m, afterSeparator rest)
  | none => (.log, cs)

/-- The digits of the marker that a text begins with, and what follows the marker. -/
def markerAt? (cs : List Char) : Option (List Char × List Char) := do
  let rest ← afterOpening? markerOpening.toList cs
  let digits := rest.takeWhile Char.isDigit
  if digits.isEmpty then none
  else return (digits, ← afterOpening? markerClosing.toList (rest.dropWhile Char.isDigit))

/-- What stands before the first marker of a text, its digits, and what follows it. -/
def firstMarker? : List Char → Option (List Char × List Char × List Char)
  | [] => none
  | c :: cs =>
    match markerAt? (c :: cs) with
    | some (digits, after) => some ([], digits, after)
    | none => (firstMarker? cs).map fun (before, digits, after) => (c :: before, digits, after)

/-- The line that digits stand for. There is no line zero, and none above the largest word. -/
def lineOfDigits? (digits : List Char) : Option UInt32 :=
  let n := natOfDigits digits
  if 0 < n && n < UInt32.size then some (UInt32.ofNat n) else none

/-- The line that the first marker of a text names, and the text without that marker and the separator
behind it. -/
def splitMarker (cs : List Char) : Option UInt32 × List Char :=
  match firstMarker? cs with
  | none => (none, cs)
  | some (before, digits, after) =>
    match lineOfDigits? digits with
    | some n => (some n, before ++ afterSeparator after)
    | none => (none, cs)

/-- A line without the carriage return at its end, if there is one. -/
def withoutCarriageReturn (cs : List Char) : List Char :=
  if cs.getLast? = some '\r' then cs.dropLast else cs

/-- The entry of a line of a stream. Markers are looked for on demand only. -/
def Entry.ofLine (matchLines : Bool) (cs : List Char) : Entry :=
  let (method, rest) := splitTag (withoutCarriageReturn cs)
  let (line, content) := if matchLines then splitMarker rest else (none, rest)
  ⟨method, line, String.ofList content⟩

@[simp] theorem afterOpening?_append (opening rest : List Char) :
    afterOpening? opening (opening ++ rest) = some rest := by
  induction opening with
  | nil => rfl
  | cons o os ih => simp [afterOpening?, ih]

/-- What a text begins with can be put back. -/
theorem eq_append_of_afterOpening? {opening cs rest : List Char}
    (h : afterOpening? opening cs = some rest) : cs = opening ++ rest := by
  induction opening generalizing cs with
  | nil => simpa [afterOpening?] using h
  | cons o os ih =>
    cases cs with
    | nil => simp [afterOpening?] at h
    | cons c cs =>
      by_cases hc : o = c
      · simp only [afterOpening?, hc, if_true] at h
        simp [hc, ih h]
      · simp [afterOpening?, hc] at h

end Scratchpad.Log
