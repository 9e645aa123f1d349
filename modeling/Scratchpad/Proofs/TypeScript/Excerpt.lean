import Scratchpad.Compilation
import Scratchpad.Proofs.Text.Line
import Scratchpad.TypeScript.Span

/-!
# Excerpts of flawed lines

A span says in bytes where a flaw is, and the complaint about it shows a line and a caret. The line is found by
counting bytes and the caret is placed by counting characters, and both are right: the number is that of the
line on which the span begins, the excerpt is that line, and the caret stands below the place. No cut that is
made on the way lies within a character.

## Main statements

* `lineFrom_eq`: the number and the first byte of the line of an offset.
* `Complaint.ofSpan?_eq_about`: a span is shown as the position that it stands for.
* `Complaint.ofSpan?_shows`: what is shown of any span.
-/

namespace Scratchpad.TypeScript

open Scratchpad.Text

/-! ## Looking for a line -/

section

variable {offset here : Nat} {xs ys : List Char}

/-- Nothing behind the offset is looked at. -/
theorem lineFrom_of_le (h : offset ≤ here) (cs : List Char) (line : Nat × Nat) :
    lineFrom offset here cs line = line := by
  cases cs with
  | nil => rfl
  | cons c cs => exact if_pos h

/-- Characters that end no line are passed over. -/
theorem lineFrom_append_of_notMem (h : '\n' ∉ xs) (hle : here + byteLength xs ≤ offset) (line : Nat × Nat) :
    lineFrom offset here (xs ++ ys) line = lineFrom offset (here + byteLength xs) ys line := by
  induction xs generalizing here with
  | nil => rfl
  | cons x xs ih =>
    rw [List.mem_cons, not_or] at h
    obtain ⟨hx, hxs⟩ := h
    have hpos := x.utf8Size_pos
    rw [byteLength_cons] at hle
    have hbefore : ¬ offset ≤ here := by omega
    rw [List.cons_append, lineFrom, if_neg hbefore, if_neg (Ne.symm hx), ih hxs (by omega), byteLength_cons,
      Nat.add_assoc]

/-- A text that ends with a line feed ends as many lines as it has line feeds, and behind it a line begins. -/
theorem lineFrom_append_of_getLast? (h : xs.getLast? = some '\n') (hle : here + byteLength xs ≤ offset)
    (number start : Nat) :
    lineFrom offset here (xs ++ ys) (number, start) =
      lineFrom offset (here + byteLength xs) ys (number + xs.count '\n', here + byteLength xs) := by
  induction xs generalizing here number start with
  | nil => cases h
  | cons x xs ih =>
    have hpos := x.utf8Size_pos
    rw [byteLength_cons] at hle
    have hbefore : ¬ offset ≤ here := by omega
    rw [List.cons_append, lineFrom, if_neg hbefore, byteLength_cons, ← Nat.add_assoc]
    rcases List.eq_nil_or_concat xs with rfl | ⟨front, last, rfl⟩
    · obtain rfl : x = '\n' := by simpa using h
      rfl
    · have hlast : (front.concat last).getLast? = some '\n' := by simpa [List.getLast?_cons] using h
      by_cases hx : x = '\n'
      · subst hx
        rw [if_pos rfl, ih hlast (by omega), List.count_cons_self, Nat.add_assoc number, Nat.add_comm 1]
      · rw [if_neg hx, ih hlast (by omega), List.count_cons_of_ne hx]

end

section

variable {cs before line behind : List Char} {k : Nat}

/-- **The line of an offset** has the number of the line feeds before it and begins behind the last of them. -/
theorem lineFrom_eq (h : IsLine cs before line behind) :
    lineFrom (byteLength before + byteLength (line.take k)) 0 cs (1, 0) =
      (1 + before.count '\n', byteLength before) := by
  have hparts : cs = before ++ (line.take k ++ (line.drop k ++ behind)) := by
    rw [h.eq_append, ← List.append_assoc (line.take k), List.take_append_drop]
  have hnone : '\n' ∉ line.take k := fun hmem => h.newline_notMem (List.mem_of_mem_take hmem)
  rw [hparts]
  cases hlast : before.getLast? with
  | none =>
    obtain rfl : before = [] := List.getLast?_eq_none_iff.mp hlast
    rw [List.nil_append, lineFrom_append_of_notMem hnone (by simp), lineFrom_of_le (by simp)]
    rfl
  | some c =>
    obtain rfl := h.before_ends c hlast
    rw [lineFrom_append_of_getLast? hlast (by omega), lineFrom_append_of_notMem hnone (by omega),
      lineFrom_of_le (by omega), Nat.zero_add]

/-- **A span is shown as the position that it stands for.** -/
theorem Complaint.ofSpan?_eq_about {source : String} {fileStart lo : Nat}
    (h : IsLine (withoutEncodingMark source.toList) before line behind) (hk : k ≤ line.length)
    (hlo : min (lo - fileStart) (byteLength (withoutEncodingMark source.toList)) =
      byteLength before + byteLength (line.take k)) (diagnostic : String) :
    Complaint.ofSpan? source fileStart lo diagnostic =
      some (.about (withoutEncodingMark source.toList) (before.length + k) diagnostic) := by
  have hparts : withoutEncodingMark source.toList = before ++ (line.take k ++ (line.drop k ++ behind)) := by
    rw [h.eq_append, ← List.append_assoc (line.take k), List.take_append_drop]
  have hbefore : between? (byteLength before) (byteLength before + byteLength (line.take k))
      (withoutEncodingMark source.toList) = some (line.take k) := by
    rw [hparts]
    exact between?_append ..
  have hrest : cutAt? (byteLength before) (withoutEncodingMark source.toList) =
      some (before, line ++ behind) := by
    rw [h.eq_append]
    exact cutAt?_byteLength ..
  have hle : before.length ≤ before.length + k := Nat.le_add_right ..
  have hge : before.length + k ≤ before.length + line.length := Nat.add_le_add_left hk _
  have hlength : (line.take k).length = k := List.length_take_of_le hk
  simp only [ofSpan?, hlo, lineFrom_eq h, hbefore, hrest, Option.bind_eq_bind, Option.bind_some, Option.pure_def,
    Complaint.about, h.lineAt_eq hle hge, h.columnAt_eq hle hge, h.lineTextAt_eq hle hge, hlength,
    Nat.add_sub_cancel_left]

end

/-! ## What is shown -/

/-- The position that is meant by the beginning of a span. -/
theorem exists_position {cs : List Char} {fileStart lo : Nat}
    (hlo : lo < fileStart ∨ (∃ xs ys, cs = xs ++ ys ∧ lo = fileStart + byteLength xs) ∨
      fileStart + byteLength cs < lo) :
    ∃ pos ≤ cs.length, byteLength (cs.take pos) = min (lo - fileStart) (byteLength cs) := by
  rcases hlo with hbefore | ⟨xs, ys, rfl, rfl⟩ | hbehind
  · refine ⟨0, Nat.zero_le _, ?_⟩
    rw [List.take_zero, byteLength_nil]
    omega
  · refine ⟨xs.length, by simp, ?_⟩
    rw [List.take_left, byteLength_append]
    omega
  · refine ⟨cs.length, Nat.le_refl _, ?_⟩
    rw [List.take_length]
    omega

/-- A span that begins at a position is shown as that position. -/
theorem Complaint.ofSpan?_of_take {source : String} {fileStart lo pos : Nat}
    (hpos : pos ≤ (withoutEncodingMark source.toList).length)
    (hlo : byteLength ((withoutEncodingMark source.toList).take pos) =
      min (lo - fileStart) (byteLength (withoutEncodingMark source.toList))) (diagnostic : String) :
    ofSpan? source fileStart lo diagnostic = some (.about (withoutEncodingMark source.toList) pos diagnostic) := by
  obtain ⟨before, line, behind, h, hle, hge⟩ := exists_isLine _ hpos
  obtain ⟨k, rfl⟩ := Nat.exists_eq_add_of_le hle
  rw [h.take_eq hle hge, Nat.add_sub_cancel_left, byteLength_append] at hlo
  exact ofSpan?_eq_about h (by omega) hlo.symm diagnostic

/-- A span that begins where the characters before a position end is shown as that position, also if it lies behind
the text. -/
theorem Complaint.ofSpan?_of_position (source : String) (fileStart pos : Nat) (diagnostic : String) :
    let cs := withoutEncodingMark source.toList
    ofSpan? source fileStart (fileStart + byteLength (cs.take pos)) diagnostic = some (.about cs pos diagnostic) := by
  intro cs
  obtain ⟨hline, hcolumn, htext⟩ := about_min cs pos
  have htake : cs.take (min pos cs.length) = cs.take pos := List.take_eq_take_min.symm
  have hwithin : byteLength cs = byteLength (cs.take pos) + byteLength (cs.drop pos) := by
    rw [← byteLength_append, List.take_append_drop]
  have hlo : byteLength (cs.take (min pos cs.length)) =
      min (fileStart + byteLength (cs.take pos) - fileStart) (byteLength cs) := by
    rw [htake]
    omega
  rw [ofSpan?_of_take (Nat.min_le_right pos cs.length) hlo, Complaint.about, hline, hcolumn, htext]
  rfl

/-- What the line of a position shows at a column is the character at that position. -/
theorem getElem?_of_firstLine {cs before line behind : List Char} (h : IsLine cs before line behind) {k : Nat}
    {c : Char} (hc : (firstLine (line ++ behind))[k]? = some c) : cs[before.length + k]? = some c := by
  have hprefix : firstLine (line ++ behind) <+: line := by
    rw [firstLine_append h.newline_notMem h.behind_begins]
    split
    · exact List.dropLast_prefix line
    · exact List.prefix_refl line
  obtain ⟨rest, hrest⟩ := hprefix
  have hk : k < (firstLine (line ++ behind)).length := (List.getElem?_eq_some_iff.mp hc).1
  rw [h.eq_append, List.getElem?_append_right (Nat.le_add_right ..), Nat.add_sub_cancel_left, ← hrest,
    List.append_assoc, List.getElem?_append_left hk]
  exact hc

/-- **What is shown of a flaw.** A span begins somewhere in a file: between two characters of the text behind the
encoding mark, or before that text, which counts as its beginning, or behind it, which counts as its end. Then
there is a complaint. The position that is meant is `k` characters behind the beginning of a line. The number is
one more than the number of line feeds before the position. The excerpt is that line without what ends it, which
may be a carriage return and a line feed. The caret stands behind two blanks, as the excerpt does, and `k` more:
if the position lies within the excerpt, then below its character.

So is everything shown that is wrong with a source, wherever its file starts. -/
theorem Complaint.ofSpan?_shows (source : String) (fileStart lo : Nat) (diagnostic : String)
    (hlo : lo < fileStart ∨
      (∃ xs ys, withoutEncodingMark source.toList = xs ++ ys ∧ lo = fileStart + byteLength xs) ∨
      fileStart + byteLength (withoutEncodingMark source.toList) < lo) :
    let cs := withoutEncodingMark source.toList
    (∃ before line behind k, IsLine cs before line behind ∧ k ≤ line.length ∧
      byteLength (cs.take (before.length + k)) = min (lo - fileStart) (byteLength cs) ∧
      let number := 1 + (cs.take (before.length + k)).count '\n'
      let excerpt := if behind ≠ [] ∧ line.getLast? = some '\r' then line.dropLast else line
      ofSpan? source fileStart lo diagnostic = some {
        line := number
        message := "Parse error at line " ++ toString number ++ ":\n  " ++ String.ofList excerpt ++ "\n  " ++
          (String.ofList (List.replicate k ' ') ++ "^") ++ "\n" ++ description diagnostic } ∧
      ∀ c, excerpt[k]? = some c → cs[before.length + k]? = some c) ∧
    ∀ flaw, Document.parse true (String.ofList cs) = .error flaw →
      ∃ complaint, compile source = .error (.parse complaint) ∧
        ofSpan? source fileStart (fileStart + byteLength (cs.take flaw.pos)) flaw.diagnostic =
          some complaint := by
  intro cs
  constructor
  · obtain ⟨pos, hpos, htake⟩ := exists_position hlo
    obtain ⟨before, line, behind, h, hle, hge⟩ := exists_isLine cs hpos
    obtain ⟨k, rfl⟩ := Nat.exists_eq_add_of_le hle
    refine ⟨before, line, behind, k, h, by omega, htake, ?_⟩
    intro number excerpt
    have hexcerpt : firstLine (line ++ behind) = excerpt := firstLine_append h.newline_notMem h.behind_begins
    refine ⟨?_, fun c hc => getElem?_of_firstLine h (hexcerpt ▸ hc)⟩
    rw [ofSpan?_of_take hpos htake, Complaint.about, h.columnAt_eq hle hge, h.lineTextAt_eq hle hge, hexcerpt,
      Nat.add_sub_cancel_left]
    rfl
  · intro flaw hflaw
    exact ⟨.ofFlaw cs flaw, compile_of_error rfl hflaw, ofSpan?_of_position source fileStart flaw.pos _⟩

/-- A span that begins at the second sign of the second line. Lines end with two characters, some characters take
more than one byte, and the file begins with an encoding mark. -/
theorem Complaint.ofSpan?_shows_second_line :
    let source := "\ufeffé;\r\n✗✗ = 1\r\n"
    let cs := withoutEncodingMark source.toList
    cs = "é;\r\n✗".toList ++ "✗ = 1\r\n".toList ∧ 9 = 1 + byteLength "é;\r\n✗".toList ∧
      ofSpan? source 1 9 "" =
        some ⟨2, "Parse error at line 2:\n  ✗✗ = 1\n   ^\nSyntax error"⟩ ∧
      ∃ before line behind k, IsLine cs before line behind ∧ k ≤ line.length ∧
        byteLength (cs.take (before.length + k)) = 8 ∧
        1 + (cs.take (before.length + k)).count '\n' = 2 := by
  intro source cs
  have hparts : cs = "é;\r\n✗".toList ++ "✗ = 1\r\n".toList := by decide
  have hbytes : 9 = 1 + byteLength "é;\r\n✗".toList := by decide
  have htold : ofSpan? source 1 9 "" =
      some ⟨2, "Parse error at line 2:\n  ✗✗ = 1\n   ^\nSyntax error"⟩ := by decide
  obtain ⟨⟨before, line, behind, k, h, hk, htake, hshown, -⟩, -⟩ :=
    ofSpan?_shows source 1 9 "" (.inr (.inl ⟨_, _, hparts, hbytes⟩))
  refine ⟨hparts, hbytes, htold, before, line, behind, k, h, hk, ?_, ?_⟩
  · rw [htake]
    decide
  · rw [htold] at hshown
    exact (congrArg Complaint.line (Option.some.inj hshown)).symm

end Scratchpad.TypeScript
