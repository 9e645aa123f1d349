import Scratchpad.Log.Entry
import Scratchpad.Text.Offset

/-!
# Looking for a marker by offsets

A marker can be looked for without going through the characters one by one. The opening of a marker is searched
for from an offset on, digits are counted behind it as bytes, and the text is cut at the offsets that come out.
Where the digits are missing or are not followed by the closing, the search goes on behind the opening. Every
cut is tried, and there is no result if one of them lies within a character.

## Main definitions

* `wordOfDigits?`: the word that digits stand for, with a check at every digit.
* `lookFrom?`: what is found from an offset on.
* `takeMarker?`: a marker is taken out of a text.
* `searchMarker?`: the line and the content of a text.
* `Entry.ofLine?`: the entry of a line.

## Main statements

* `lt_of_lookFrom?_malformed`: an opening without a marker is left behind.
-/

namespace Scratchpad.Log

open Number Text

/-- The word that digits stand for. Each digit is put behind those before it, and the number must fit into a
word each time. -/
def wordOfDigits? (digits : List Char) : Option UInt32 :=
  digits.foldlM (fun word d =>
    let extended := word.toNat * 10 + digitValue d
    if extended < UInt32.size then some (UInt32.ofNat extended) else none) 0

/-- Whether a byte is a digit. -/
def isDigitByte (b : UInt8) : Bool := 48 ≤ b && b ≤ 57

/-- How many bytes at the beginning of a text are digits. -/
def countDigits (cs : List Char) : Nat :=
  ((cs.flatMap String.utf8EncodeChar).takeWhile isDigitByte).length

/-- What is found from an offset on. -/
inductive Sight where
  /-- No marker is opened. -/
  | nothing
  /-- A marker is opened, but it is none. The search goes on at an offset. -/
  | malformed (next : Nat)
  /-- A marker, its digits and its closing begin at offsets. -/
  | marker (opening digits closing : Nat)
deriving DecidableEq, Inhabited, Repr

/-- Looks for the first marker that is opened at an offset or behind it. -/
def lookFrom? (cs : List Char) (start : Nat) : Option Sight := do
  let (_, rest) ← cutAt? start cs
  match offsetOf? markerOpening.toList rest with
  | none => return .nothing
  | some found =>
    let opening := start + found
    let digits := opening + byteLength markerOpening.toList
    let (_, rest) ← cutAt? digits cs
    let count := countDigits rest
    let closing := digits + count
    if count = 0 then return .malformed digits
    let (_, rest) ← cutAt? closing cs
    if markerClosing.toList.isPrefixOf rest then return .marker opening digits closing
    else return .malformed digits

/-- An opening without a marker is left behind. -/
theorem lt_of_lookFrom?_malformed {cs : List Char} {start next : Nat}
    (h : lookFrom? cs start = some (.malformed next)) : start < next ∧ next ≤ byteLength cs := by
  simp only [lookFrom?, Option.bind_eq_bind, Option.bind_eq_some_iff, Option.pure_def] at h
  obtain ⟨⟨_, rest⟩, _, h⟩ := h
  cases hfound : offsetOf? markerOpening.toList rest with
  | none => simp [hfound] at h
  | some found =>
    simp only [hfound, Option.bind_eq_some_iff] at h
    obtain ⟨⟨before, behind⟩, hcut, h⟩ := h
    have hnext : start + found + byteLength markerOpening.toList = next := by
      split at h
      · simpa using h
      · obtain ⟨_, _, h⟩ := Option.bind_eq_some_iff.mp h
        split at h
        · simp at h
        · simpa using h
    have hle := le_byteLength_of_cutAt? hcut
    have hopening : 0 < byteLength markerOpening.toList := by decide
    omega

/-- The line that a marker names, and the text without the marker and the separator behind it. A number that is
no line is left in the text. -/
def takeMarker? (cs : List Char) (opening digits closing : Nat) : Option (Option UInt32 × List Char) := do
  match (wordOfDigits? (← between? digits closing cs)).filter (0 < ·) with
  | none => return (none, cs)
  | some line =>
    let (_, after) ← cutAt? (closing + byteLength markerClosing.toList) cs
    let (before, _) ← cutAt? opening cs
    return (some line, before ++ afterSeparator after)

/-- The line that the first marker behind an offset names, and the text without that marker. -/
def searchMarker? (cs : List Char) (start : Nat) : Option (Option UInt32 × List Char) :=
  match hlook : lookFrom? cs start with
  | none => none
  | some .nothing => some (none, cs)
  | some (.malformed next) =>
    have := lt_of_lookFrom?_malformed hlook
    searchMarker? cs next
  | some (.marker opening digits closing) => takeMarker? cs opening digits closing
termination_by byteLength cs - start

section

variable {cs : List Char} {start next opening digits closing : Nat}

theorem searchMarker?_of_nothing (h : lookFrom? cs start = some .nothing) :
    searchMarker? cs start = some (none, cs) := by
  rw [searchMarker?]
  split <;> simp_all

theorem searchMarker?_of_malformed (h : lookFrom? cs start = some (.malformed next)) :
    searchMarker? cs start = searchMarker? cs next := by
  rw [searchMarker?]
  split <;> simp_all

theorem searchMarker?_of_marker (h : lookFrom? cs start = some (.marker opening digits closing)) :
    searchMarker? cs start = takeMarker? cs opening digits closing := by
  rw [searchMarker?]
  split <;> simp_all

end

/-- The entry of a line of a stream, with its marker looked for by offsets. -/
def Entry.ofLine? (matchLines : Bool) (cs : List Char) : Option Entry := do
  let (method, rest) := splitTag (withoutCarriageReturn cs)
  let (line, content) ← if matchLines then searchMarker? rest 0 else some (none, rest)
  return ⟨method, line, String.ofList content⟩

end Scratchpad.Log
