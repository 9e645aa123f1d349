import Scratchpad.Proofs.Text.LineFeed
import Scratchpad.Sandbox.Pipe

/-!
# Chunks that come through a pipe

However the output of a program is fragmented, what comes through its pipe is one chunk for each line, with
the line feed at its end, and a chunk for what stands behind the last line feed, if that is anything.

## Main definitions

* `Pipe.IsEnded`, `Pipe.IsUnended`: chunks with a line feed at their end and without one.
* `Pipe.Framed`: chunks of which only the last one may be without a line feed.

## Main statements

* `Framed.forall_mem`, `Framed.forall_mem_dropLast`: what framed chunks are, one by one.
* `framed_chunks`: what comes through a pipe is framed, however it is fragmented.
* `characters_receive`, `characters_close`: the chunks hold the characters of the bytes.
* `chunks_eq_of_flatten`: the chunks depend on the bytes only.
* `join_chunks`: the chunks are the text of all bytes.
-/

namespace Scratchpad.Sandbox.Pipe

/-- A line with the line feed that ends it. -/
def IsEnded (c : String) : Prop := ∃ line, '\n' ∉ line ∧ c.toList = line ++ ['\n']

/-- The beginning of a line, or all of it if nothing follows. -/
def IsUnended (c : String) : Prop := c.toList ≠ [] ∧ '\n' ∉ c.toList

/-- Chunks of which each ends a line, except that the last one may not. -/
inductive Framed : List String → Prop
  | nil : Framed []
  | last {c : String} (hc : IsUnended c) : Framed [c]
  | line {c : String} {cs : List String} (hc : IsEnded c) (hcs : Framed cs) : Framed (c :: cs)

theorem Framed.append {cs more : List String} (hcs : ∀ c ∈ cs, IsEnded c) (hmore : Framed more) :
    Framed (cs ++ more) := by
  induction cs with
  | nil => exact hmore
  | cons c cs ih =>
    rw [List.forall_mem_cons] at hcs
    exact .line hcs.1 (ih hcs.2)

theorem IsEnded.getLast?_eq {c : String} (h : IsEnded c) : c.toList.getLast? = some '\n' := by
  rcases h with ⟨line, -, hc⟩
  rw [hc, List.getLast?_concat]

theorem IsEnded.newline_notMem_dropLast {c : String} (h : IsEnded c) : '\n' ∉ c.toList.dropLast := by
  rcases h with ⟨line, hline, hc⟩
  rwa [hc, List.dropLast_concat]

/-- No chunk of a pipe is empty, and only its last character may be a line feed. -/
theorem Framed.forall_mem {cs : List String} (h : Framed cs) : ∀ c ∈ cs, c ≠ "" ∧ '\n' ∉ c.toList.dropLast := by
  induction h with
  | nil => simp
  | @last c hc =>
    rw [List.forall_mem_singleton]
    refine ⟨?_, fun hmem => hc.2 (List.dropLast_subset _ hmem)⟩
    rintro rfl
    exact hc.1 rfl
  | @line c cs hc _ ih =>
    refine List.forall_mem_cons.mpr ⟨⟨?_, hc.newline_notMem_dropLast⟩, ih⟩
    rintro rfl
    cases hc.getLast?_eq

/-- Each chunk of a pipe but the last one ends with a line feed. -/
theorem Framed.forall_mem_dropLast {cs : List String} (h : Framed cs) :
    ∀ c ∈ cs.dropLast, c.toList.getLast? = some '\n' := by
  induction h with
  | nil => simp
  | last _ => simp
  | @line c cs hc _ ih =>
    cases cs with
    | nil => simp
    | cons d ds => exact List.forall_mem_cons.mpr ⟨hc.getLast?_eq, ih⟩

/-! ## Bytes -/

/-- The lines of bytes are cut behind their line feeds, and what stands behind the last one has none. -/
theorem frame_spec (bs : List UInt8) :
    (∀ line ∈ (frame bs).1, ∃ body, lineFeed ∉ body ∧ line = body ++ [lineFeed]) ∧
      lineFeed ∉ (frame bs).2 := by
  induction bs with
  | nil => simp
  | cons b bs ih =>
    rw [frame_cons]
    rcases hframe : frame bs with ⟨lines, rest⟩
    rw [hframe] at ih
    obtain ⟨hlines, hrest⟩ := ih
    by_cases hb : b = lineFeed
    · subst hb
      exact ⟨List.forall_mem_cons.mpr ⟨⟨[], by simp, rfl⟩, hlines⟩, hrest⟩
    · -- no line feed
      cases lines with
      | nil =>
        rw [put, if_neg hb]
        exact ⟨hlines, by simpa [hrest] using Ne.symm hb⟩
      | cons line lines =>
        rw [put, if_neg hb, List.forall_mem_cons]
        rw [List.forall_mem_cons] at hlines
        obtain ⟨⟨body, hbody, rfl⟩, hlines⟩ := hlines
        have hfirst : lineFeed ∉ b :: body := by simpa [hbody] using Ne.symm hb
        exact ⟨⟨⟨b :: body, hfirst, rfl⟩, hlines⟩, hrest⟩

/-- Nothing is lost when bytes are cut into lines. -/
theorem flatten_frame (bs : List UInt8) : (frame bs).1.flatten ++ (frame bs).2 = bs := by
  induction bs with
  | nil => rfl
  | cons b bs ih =>
    rw [frame_cons]
    rcases hframe : frame bs with ⟨lines, rest⟩
    rw [hframe] at ih
    by_cases hb : b = lineFeed
    · subst hb
      rw [← ih]
      rfl
    · cases lines with
      | nil =>
        rw [put, if_neg hb, ← ih]
        rfl
      | cons line lines =>
        rw [put, if_neg hb, ← ih]
        rfl

theorem frame_of_notMem {bs : List UInt8} (h : lineFeed ∉ bs) : frame bs = ([], bs) := by
  induction bs with
  | nil => rfl
  | cons b bs ih =>
    rw [List.mem_cons, not_or] at h
    rw [frame_cons, ih h.2, put, if_neg (Ne.symm h.1)]

/-- **Bytes may be cut in two anywhere**: what stands behind the last line feed of the first part is taken up by
the second one. -/
theorem frame_append (bs more : List UInt8) :
    frame (bs ++ more) =
      ((frame bs).1 ++ (frame ((frame bs).2 ++ more)).1, (frame ((frame bs).2 ++ more)).2) := by
  induction bs with
  | nil => rfl
  | cons b bs ih =>
    rw [List.cons_append, frame_cons, frame_cons, ih]
    rcases hframe : frame bs with ⟨lines, rest⟩
    by_cases hb : b = lineFeed
    · subst hb
      rfl
    · cases lines with
      | nil =>
        have hput : put b ([], rest) = ([], b :: rest) := by rw [put, if_neg hb]
        rw [hput, List.cons_append, frame_cons]
        rfl
      | cons line lines =>
        have hput : ∀ lines' rest', put b (line :: lines', rest') = ((b :: line) :: lines', rest') := by
          intro lines' rest'
          rw [put, if_neg hb]
        rw [List.cons_append, hput, hput]
        rfl

/-- No character lies across the end of a line, so lines are read one by one. -/
theorem characters_flatten {lines : List (List UInt8)}
    (hlines : ∀ line ∈ lines, ∃ body, lineFeed ∉ body ∧ line = body ++ [lineFeed]) (rest : List UInt8) :
    Utf8.characters (lines.flatten ++ rest) = lines.flatMap Utf8.characters ++ Utf8.characters rest := by
  induction lines with
  | nil => rfl
  | cons line lines ih =>
    rw [List.forall_mem_cons] at hlines
    obtain ⟨⟨body, -, rfl⟩, hlines⟩ := hlines
    have hline : Utf8.characters (body ++ [lineFeed]) = Utf8.characters body ++ ['\n'] :=
      Utf8.characters_append_lineFeed body []
    have hall : Utf8.characters (body ++ lineFeed :: (lines.flatten ++ rest)) =
        Utf8.characters body ++ '\n' :: Utf8.characters (lines.flatten ++ rest) :=
      Utf8.characters_append_lineFeed body (lines.flatten ++ rest)
    rw [List.flatten_cons, List.flatMap_cons, hline, List.append_assoc, List.append_assoc,
      List.singleton_append, hall, ih hlines, List.append_assoc, List.append_assoc]
    rfl

theorem isEnded_decode {body : List UInt8} (h : lineFeed ∉ body) :
    IsEnded (Utf8.decode (body ++ [lineFeed])) := by
  refine ⟨Utf8.characters body, Utf8.newline_notMem_characters h, ?_⟩
  rw [Utf8.decode, String.toList_ofList]
  exact Utf8.characters_append_lineFeed body []

theorem isUnended_decode {bs : List UInt8} (hne : bs ≠ []) (h : lineFeed ∉ bs) :
    IsUnended (Utf8.decode bs) := by
  rw [IsUnended, Utf8.decode, String.toList_ofList]
  exact ⟨Utf8.characters_ne_nil hne, Utf8.newline_notMem_characters h⟩

/-! ## Chunks -/

theorem isEnded_of_mem_receive {pending fragment : List UInt8} {c : String}
    (hc : c ∈ (receive pending fragment).1) : IsEnded c := by
  obtain ⟨line, hline, rfl⟩ := List.mem_map.mp hc
  obtain ⟨body, hbody, rfl⟩ := (frame_spec _).1 line hline
  exact isEnded_decode hbody

theorem lineFeed_notMem_receive (pending fragment : List UInt8) :
    lineFeed ∉ (receive pending fragment).2 :=
  (frame_spec _).2

theorem framed_close {pending : List UInt8} (h : lineFeed ∉ pending) : Framed (close pending) := by
  cases pending with
  | nil => exact .nil
  | cons b bs => exact .last (isUnended_decode (by simp) h)

theorem framed_chunksFrom {pending : List UInt8} (h : lineFeed ∉ pending)
    (fragments : List (List UInt8)) : Framed (chunksFrom pending fragments) := by
  induction fragments generalizing pending with
  | nil => exact framed_close h
  | cons fragment fragments ih =>
    have hmore : Framed (chunksFrom (receive pending fragment).2 fragments) :=
      ih (lineFeed_notMem_receive pending fragment)
    exact .append (fun _ hc => isEnded_of_mem_receive hc) hmore

/-- The chunks that a fragment completes and what is left hold its characters, whatever follows. -/
theorem characters_receive (pending fragment more : List UInt8) :
    Utf8.characters (pending ++ fragment ++ more) =
      (receive pending fragment).1.flatMap String.toList ++
        Utf8.characters ((receive pending fragment).2 ++ more) := by
  have hlines := (frame_spec (pending ++ fragment)).1
  have hall := flatten_frame (pending ++ fragment)
  rw [receive]
  generalize frame (pending ++ fragment) = framed at hlines hall
  obtain ⟨lines, rest⟩ := framed
  have hdecode : ∀ line, (Utf8.decode line).toList = Utf8.characters line := fun _ => String.toList_ofList
  rw [← hall, List.append_assoc, characters_flatten hlines]
  simp only [List.flatMap_map, hdecode]

/-- The chunk that is left when the pipe is closed holds the characters of what had arrived of a line. -/
theorem characters_close (pending : List UInt8) :
    (close pending).flatMap String.toList = Utf8.characters pending := by
  cases pending with
  | nil => rfl
  | cons b bs => simp [close, Utf8.decode]

/-- **What comes through a pipe is framed**, however it is fragmented. -/
theorem framed_chunks (fragments : List (List UInt8)) : Framed (chunks fragments) :=
  framed_chunksFrom (by simp) fragments

/-- The chunks of fragments are those of all their bytes. -/
theorem chunksFrom_eq {pending : List UInt8} (h : lineFeed ∉ pending) (fragments : List (List UInt8)) :
    chunksFrom pending fragments = chunksFrom [] [pending ++ fragments.flatten] := by
  induction fragments generalizing pending with
  | nil =>
    have hframe : frame pending = ([], pending) := frame_of_notMem h
    simp [chunksFrom, receive, hframe]
  | cons fragment fragments ih =>
    have hcut := frame_append (pending ++ fragment) fragments.flatten
    have hmore := ih (lineFeed_notMem_receive pending fragment)
    simp only [chunksFrom, receive, List.nil_append, List.flatten_cons] at hmore ⊢
    rw [hmore, ← List.append_assoc pending, hcut, List.map_append, List.append_assoc]

/-- **The chunks depend on the bytes only**, not on how they are fragmented. -/
theorem chunks_eq_of_flatten {fragments more : List (List UInt8)} (h : fragments.flatten = more.flatten) :
    chunks fragments = chunks more := by
  have hnone : lineFeed ∉ ([] : List UInt8) := List.not_mem_nil
  rw [chunks, chunks, chunksFrom_eq hnone fragments, chunksFrom_eq hnone more, h]

/-- The chunks of fragments that arrive behind what has arrived of a line hold the characters of all bytes. -/
theorem characters_chunksFrom (pending : List UInt8) (fragments : List (List UInt8)) :
    (chunksFrom pending fragments).flatMap String.toList =
      Utf8.characters (pending ++ fragments.flatten) := by
  induction fragments generalizing pending with
  | nil =>
    rw [chunksFrom, characters_close, List.flatten_nil, List.append_nil]
  | cons fragment fragments ih =>
    have hfirst := characters_receive pending fragment fragments.flatten
    rw [chunksFrom, List.flatMap_append, ih, List.flatten_cons, ← List.append_assoc, hfirst]

/-- **Nothing is lost in a pipe**: the chunks are the text of all bytes. -/
theorem join_chunks (fragments : List (List UInt8)) :
    String.join (chunks fragments) = Utf8.decode fragments.flatten := by
  apply String.toList_injective
  rw [String.toList_join, chunks, characters_chunksFrom, Utf8.decode, String.toList_ofList]
  rfl

end Scratchpad.Sandbox.Pipe
