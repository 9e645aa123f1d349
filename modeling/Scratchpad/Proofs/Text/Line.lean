import Scratchpad.Text.Lines

/-!
# A line within a text

A line is what stands between two line feeds, or between one of them and an end of the text. Its number, how
far a position on it lies from its beginning, and what is shown of it are said by these parts: what stands
before the line, the line, and what stands behind it.

## Main definitions

* `IsLine`: a text in three parts, of which the middle one is a line.

## Main statements

* `exists_isLine`: every position is on a line.
* `IsLine.lineAt_eq_iff`: the positions with the number of a line are those on it.
-/

namespace Scratchpad.Text

/-- A text consists of what stands before a line, the line, and what stands behind it. -/
structure IsLine (cs before line behind : List Char) : Prop where
  eq_append : cs = before ++ (line ++ behind)
  before_ends : ∀ c, before.getLast? = some c → c = '\n'
  newline_notMem : '\n' ∉ line
  behind_begins : ∀ c, behind.head? = some c → c = '\n'

/-- A text up to a line feed, if one comes first behind it. -/
theorem takeWhile_ne_newline_append {line behind : List Char} (h : '\n' ∉ line)
    (hbehind : ∀ c, behind.head? = some c → c = '\n') :
    (line ++ behind).takeWhile (· != '\n') = line := by
  rw [List.takeWhile_append_of_pos fun c hc => ?_]
  · cases behind with
    | nil => simp
    | cons c behind =>
      obtain rfl := hbehind c rfl
      simp
  · have hne : c ≠ '\n' := fun heq => h (heq ▸ hc)
    simpa using hne

/-- What is shown of a line depends on whether anything stands behind it, and not on what. -/
theorem firstLine_append {line behind : List Char} (h : '\n' ∉ line)
    (hbehind : ∀ c, behind.head? = some c → c = '\n') :
    firstLine (line ++ behind) =
      if behind ≠ [] ∧ line.getLast? = some '\r' then line.dropLast else line := by
  rw [firstLine]
  simp only [takeWhile_ne_newline_append h hbehind]
  have hlonger : line.length < (line ++ behind).length ↔ behind ≠ [] := by
    rw [List.length_append, ← List.length_pos_iff]
    omega
  simp only [Bool.and_eq_true, decide_eq_true_iff, beq_iff_eq, hlonger]

theorem firstLine_append_congr {line behind behind' : List Char} (h : '\n' ∉ line)
    (hbehind : ∀ c, behind.head? = some c → c = '\n') (hbehind' : ∀ c, behind'.head? = some c → c = '\n')
    (hnil : behind' = [] ↔ behind = []) : firstLine (line ++ behind') = firstLine (line ++ behind) := by
  rw [firstLine_append h hbehind, firstLine_append h hbehind']
  simp only [ne_eq, hnil]

/-- What is shown of a line is the line, or the line without its last character. -/
theorem length_firstLine_append {line behind : List Char} (h : '\n' ∉ line)
    (hbehind : ∀ c, behind.head? = some c → c = '\n') :
    (firstLine (line ++ behind)).length ≤ line.length ∧
      line.length ≤ (firstLine (line ++ behind)).length + 1 := by
  rw [firstLine_append h hbehind]
  split
  · rw [List.length_dropLast]
    omega
  · omega

theorem newline_notMem_firstLine (cs : List Char) : '\n' ∉ firstLine cs := by
  have hline : '\n' ∉ cs.takeWhile (· != '\n') := fun hmem => by
    simpa using List.all_eq_true.mp List.all_takeWhile '\n' hmem
  intro hmem
  rw [firstLine] at hmem
  split at hmem
  · exact hline ((List.dropLast_sublist _).mem hmem)
  · exact hline hmem

/-- A position behind a text is shown as its end. -/
theorem about_min (cs : List Char) (pos : Nat) :
    lineAt cs (min pos cs.length) = lineAt cs pos ∧ columnAt cs (min pos cs.length) = columnAt cs pos ∧
      lineTextAt cs (min pos cs.length) = lineTextAt cs pos := by
  have htake : cs.take (min pos cs.length) = cs.take pos := List.take_eq_take_min.symm
  simp only [lineAt, columnAt, lineTextAt, htake, and_self]

namespace IsLine

variable {cs before line behind : List Char} {pos : Nat}

theorem take_eq (h : IsLine cs before line behind) (hle : before.length ≤ pos)
    (hge : pos ≤ before.length + line.length) :
    cs.take pos = before ++ line.take (pos - before.length) := by
  rw [h.eq_append, List.take_append, List.take_of_length_le hle, List.take_append_of_le_length (by omega)]

/-- All positions of a line have its number. -/
theorem lineAt_eq (h : IsLine cs before line behind) (hle : before.length ≤ pos)
    (hge : pos ≤ before.length + line.length) : lineAt cs pos = 1 + before.count '\n' := by
  have hnone : (line.take (pos - before.length)).count '\n' = 0 :=
    List.count_eq_zero.mpr fun hmem => h.newline_notMem (List.mem_of_mem_take hmem)
  rw [lineAt, h.take_eq hle hge, List.count_append, hnone, Nat.add_zero]

theorem columnAt_eq (h : IsLine cs before line behind) (hle : before.length ≤ pos)
    (hge : pos ≤ before.length + line.length) : columnAt cs pos = pos - before.length := by
  have hnone : '\n' ∉ (line.take (pos - before.length)).reverse := fun hmem =>
    h.newline_notMem (List.mem_of_mem_take (List.mem_reverse.mp hmem))
  have hbegins : ∀ c, before.reverse.head? = some c → c = '\n' := by
    simpa using h.before_ends
  rw [columnAt, h.take_eq hle hge, List.reverse_append, takeWhile_ne_newline_append hnone hbegins,
    List.length_reverse, List.length_take]
  omega

theorem lineTextAt_eq (h : IsLine cs before line behind) (hle : before.length ≤ pos)
    (hge : pos ≤ before.length + line.length) : lineTextAt cs pos = firstLine (line ++ behind) := by
  have hstart : (cs.take pos).length - columnAt cs pos = before.length := by
    rw [h.columnAt_eq hle hge, h.take_eq hle hge, List.length_append, List.length_take]
    omega
  rw [lineTextAt, hstart, h.eq_append, List.drop_left]

/-- **The positions with the number of a line are those on it.** -/
theorem lineAt_eq_iff (h : IsLine cs before line behind) (hpos : pos ≤ cs.length) :
    lineAt cs pos = 1 + before.count '\n' ↔ before.length ≤ pos ∧ pos ≤ before.length + line.length := by
  constructor
  · intro heq
    rw [lineAt, h.eq_append] at heq
    constructor
    · -- before the line
      apply Nat.le_of_not_lt
      intro hlt
      rcases List.eq_nil_or_concat before with rfl | ⟨front, c, rfl⟩
      · cases hlt
      · obtain rfl : c = '\n' := h.before_ends c (by simp)
        rw [List.concat_eq_append] at heq hlt
        rw [List.length_append, List.length_singleton] at hlt
        have hle := (List.take_sublist pos front).count_le '\n'
        rw [List.take_append_of_le_length (by simp; omega), List.take_append_of_le_length (by omega)] at heq
        simp at heq
        omega
    · -- behind the line
      apply Nat.le_of_not_lt
      intro hlt
      rw [← List.append_assoc, List.take_append, List.take_of_length_le (by simp; omega)] at heq
      cases behind with
      | nil =>
        have hlength := congrArg List.length h.eq_append
        simp at hlength
        omega
      | cons c behind =>
        obtain rfl : c = '\n' := h.behind_begins c rfl
        obtain ⟨n, hn⟩ : ∃ n, pos - (before ++ line).length = n + 1 :=
          Nat.exists_eq_succ_of_ne_zero (by simp; omega)
        rw [hn] at heq
        simp at heq
  · rintro ⟨hle, hge⟩
    exact h.lineAt_eq hle hge

end IsLine

/-- **Every position of a text is on a line.** -/
theorem exists_isLine (cs : List Char) {pos : Nat} (hpos : pos ≤ cs.length) :
    ∃ before line behind, IsLine cs before line behind ∧ before.length ≤ pos ∧
      pos ≤ before.length + line.length := by
  induction cs generalizing pos with
  | nil =>
    obtain rfl : pos = 0 := by simpa using hpos
    exact ⟨[], [], [], ⟨rfl, by simp, by simp, by simp⟩, Nat.le_refl _, Nat.le_refl _⟩
  | cons c cs ih =>
    by_cases hc : c = '\n'
    · subst hc
      cases pos with
      | zero => exact ⟨[], [], '\n' :: cs, ⟨rfl, by simp, by simp, by simp⟩, Nat.le_refl _, Nat.le_refl _⟩
      | succ pos =>
        obtain ⟨before, line, behind, h, hle, hge⟩ := ih (Nat.le_of_succ_le_succ hpos)
        refine ⟨'\n' :: before, line, behind, ⟨by rw [h.eq_append]; rfl, ?_, h.newline_notMem, h.behind_begins⟩,
          by simpa using hle, by simp; omega⟩
        intro c hlast
        cases hb : before.getLast? with
        | none => simpa [List.getLast?_cons, hb] using hlast.symm
        | some c' =>
          obtain rfl : c' = c := by simpa [List.getLast?_cons, hb] using hlast
          exact h.before_ends c' hb
    · -- no line feed
      have hpos' : pos - 1 ≤ cs.length := by
        rw [List.length_cons] at hpos
        omega
      obtain ⟨before, line, behind, h, hle, hge⟩ := ih hpos'
      cases before with
      | nil =>
        refine ⟨[], c :: line, behind, ⟨by rw [h.eq_append]; rfl, by simp, ?_, h.behind_begins⟩, by simp,
          by simp at hge ⊢; omega⟩
        simpa using ⟨Ne.symm hc, h.newline_notMem⟩
      | cons b before =>
        have hbefore : ∀ d, (c :: b :: before).getLast? = some d → d = '\n' := by
          intro d hlast
          exact h.before_ends d (by simpa using hlast)
        cases pos with
        | zero => simp at hle
        | succ pos =>
          exact ⟨c :: b :: before, line, behind, ⟨by rw [h.eq_append]; rfl, hbefore, h.newline_notMem,
            h.behind_begins⟩, by simpa using hle, by simp at hge ⊢; omega⟩

end Scratchpad.Text
