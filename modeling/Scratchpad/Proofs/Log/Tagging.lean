import Scratchpad.Proofs.Log.Splitting

/-!
# What is tagged is read back

A line of output is tagged on one side of a stream and read on the other. What the tag, the marker and the
separators add is taken away again, and nothing else is: the content may begin with a separator, and it
may hold tags, digits and pieces of markers. Only a content without a line must not hold a whole marker,
because that would be taken for its own.

## Main definitions

* `payload`: what a tagged line holds behind its tag.
* `HoldsMarker`: a marker stands somewhere in a text.
* `IsLine`: the content of an entry can be written as one line.
* `stream`: entries as they go through a stream.

## Main statements

* `splitTag_tag`: a tag that has been put before a text is taken off.
* `firstMarker?_eq_none_iff`: no marker is found if and only if there is none.
* `Entry.ofLine_taggedLine`: the entry of a tagged line.
* `LineReader.feedAll_stream`: what a reader returns for entries that went through a stream.
-/

namespace Scratchpad.Log

open Number

/-! ## Tags -/

/-- What a tagged line holds behind its tag and the separator: the content, with a marker before it if the
line of source is known. -/
def payload (line : Option UInt32) (content : String) : String :=
  match line with
  | some n => lineMarker n.toNat ++ String.singleton separator ++ content
  | none => content

theorem taggedLine_eq (m : Method) (line : Option UInt32) (content : String) :
    taggedLine m line content = m.tag ++ String.singleton separator ++ payload line content := by
  cases line with
  | none => rfl
  | some n => simp only [taggedLine, payload, String.append_assoc]

@[simp] theorem afterSeparator_cons (cs : List Char) : afterSeparator (separator :: cs) = cs := by
  simp [afterSeparator, afterOpening?]

/-- **A tag is taken off with the separator behind it.** All tags have the same length, so no tag begins
with another. -/
theorem splitTag_tag (m : Method) (cs : List Char) :
    splitTag (m.tag.toList ++ separator :: cs) = (m, cs) := by
  cases m <;> simp [splitTag, Method.all, Method.tag, afterOpening?]

/-! ## Markers -/

/-- A marker stands somewhere in a text, whatever its digits stand for. -/
def HoldsMarker (cs : List Char) : Prop :=
  ∃ before digits after, digits ≠ [] ∧ (∀ d ∈ digits, d.isDigit) ∧
    cs = before ++ markerOpening.toList ++ digits ++ markerClosing.toList ++ after

/-- A text that begins with a marker. -/
theorem markerAt?_marker {digits : List Char} (hne : digits ≠ []) (hdigits : ∀ d ∈ digits, d.isDigit)
    (after : List Char) :
    markerAt? (markerOpening.toList ++ digits ++ markerClosing.toList ++ after) =
      some (digits, after) := by
  have htake : (digits ++ (markerClosing.toList ++ after)).takeWhile Char.isDigit = digits := by
    rw [List.takeWhile_append_of_pos hdigits]
    simp [markerClosing]
  have hdrop : (digits ++ (markerClosing.toList ++ after)).dropWhile Char.isDigit =
      markerClosing.toList ++ after := by
    rw [List.dropWhile_append_of_pos hdigits]
    simp [markerClosing]
  rw [markerAt?, List.append_assoc, List.append_assoc, afterOpening?_append]
  simp only [Option.bind_eq_bind, Option.bind_some, htake, hdrop]
  simp [hne]

theorem eq_append_of_markerAt? {cs digits after : List Char} (h : markerAt? cs = some (digits, after)) :
    digits ≠ [] ∧ (∀ d ∈ digits, d.isDigit) ∧
      cs = markerOpening.toList ++ digits ++ markerClosing.toList ++ after := by
  rw [markerAt?] at h
  simp only [Option.bind_eq_bind, Option.bind_eq_some_iff] at h
  obtain ⟨rest, hopening, h⟩ := h
  split at h
  · cases h
  · rename_i hne
    simp only [Option.bind_eq_some_iff, Option.pure_def, Option.some.injEq, Prod.mk.injEq] at h
    obtain ⟨after', hclosing, rfl, rfl⟩ := h
    refine ⟨by simpa using hne, List.all_eq_true.mp List.all_takeWhile, ?_⟩
    have hrest := eq_append_of_afterOpening? hclosing
    rw [eq_append_of_afterOpening? hopening, List.append_assoc, List.append_assoc, ← hrest,
      List.takeWhile_append_dropWhile]

/-- A marker stands at the beginning of a text, or behind its first character. -/
theorem holdsMarker_cons (c : Char) (cs : List Char) :
    HoldsMarker (c :: cs) ↔ (markerAt? (c :: cs)).isSome ∨ HoldsMarker cs := by
  constructor
  · rintro ⟨before, digits, after, hne, hdigits, heq⟩
    cases before with
    | nil =>
      left
      rw [heq, List.nil_append, markerAt?_marker hne hdigits]
      rfl
    | cons b before =>
      right
      simp only [List.cons_append, List.cons.injEq] at heq
      exact ⟨before, digits, after, hne, hdigits, heq.2⟩
  · rintro (h | ⟨before, digits, after, hne, hdigits, rfl⟩)
    · obtain ⟨⟨digits, after⟩, hmarker⟩ := Option.isSome_iff_exists.mp h
      obtain ⟨hne, hdigits, heq⟩ := eq_append_of_markerAt? hmarker
      exact ⟨[], digits, after, hne, hdigits, by rw [heq, List.nil_append]⟩
    · exact ⟨c :: before, digits, after, hne, hdigits, by simp⟩

/-- **No marker is found if and only if there is none.** -/
theorem firstMarker?_eq_none_iff (cs : List Char) : firstMarker? cs = none ↔ ¬ HoldsMarker cs := by
  induction cs with
  | nil => simp [firstMarker?, HoldsMarker, markerOpening]
  | cons c cs ih =>
    rw [holdsMarker_cons, not_or, ← ih, firstMarker?]
    cases h : markerAt? (c :: cs) with
    | none => simp
    | some found => simp

theorem splitMarker_of_not_holdsMarker {cs : List Char} (h : ¬ HoldsMarker cs) :
    splitMarker cs = (none, cs) := by
  rw [splitMarker, (firstMarker?_eq_none_iff cs).mpr h]

/-- The digits that a line is written with stand for that line. -/
theorem lineOfDigits?_toDigits {n : UInt32} (hn : 0 < n) :
    lineOfDigits? (Nat.toDigits 10 n.toNat) = some n := by
  have hpos : 0 < n.toNat := hn
  have hlt : n.toNat < UInt32.size := n.toNat_lt_size
  rw [lineOfDigits?, natOfDigits_toDigits]
  simp [hpos, hlt]

/-- **A marker is taken off with the separator behind it**, whatever follows. -/
theorem splitMarker_lineMarker {n : UInt32} (hn : 0 < n) (cs : List Char) :
    splitMarker ((lineMarker n.toNat).toList ++ separator :: cs) = (some n, cs) := by
  have hmarker : (lineMarker n.toNat).toList ++ separator :: cs =
      markerOpening.toList ++ Nat.toDigits 10 n.toNat ++ markerClosing.toList ++ separator :: cs := by
    simp [lineMarker]
  have hfirst : firstMarker? ((lineMarker n.toNat).toList ++ separator :: cs) =
      some ([], Nat.toDigits 10 n.toNat, separator :: cs) := by
    have hdigits : ∀ d ∈ Nat.toDigits 10 n.toNat, d.isDigit := fun d hd =>
      Nat.isDigit_of_mem_toDigits (by omega) (by omega) hd
    have hat := markerAt?_marker Nat.toDigits_ne_nil hdigits (separator :: cs)
    rw [← hmarker] at hat
    cases h : (lineMarker n.toNat).toList ++ separator :: cs with
    | nil => simp at h
    | cons c cs' =>
      rw [h] at hat
      rw [firstMarker?, hat]
  rw [splitMarker, hfirst]
  simp [lineOfDigits?_toDigits hn]

/-! ## Lines -/

/-- A content that can be written as one line: it has no line feed, and no carriage return at its end, since
that would be taken for a part of the line's end. -/
def IsLine (content : String) : Prop :=
  '\n' ∉ content.toList ∧ content.toList.getLast? ≠ some '\r'

theorem newline_notMem_tag (m : Method) : '\n' ∉ m.tag.toList := by cases m <;> decide

theorem newline_notMem_lineMarker (n : Nat) : '\n' ∉ (lineMarker n).toList := by
  have hdigits : '\n' ∉ Nat.toDigits 10 n := fun h => by
    have hdigit := Nat.isDigit_of_mem_toDigits (by omega) (by omega) h
    exact absurd hdigit (by decide)
  simpa [lineMarker, markerOpening, markerClosing] using hdigits

/-- A tagged line ends with the separator and the content. -/
theorem exists_toList_taggedLine (m : Method) (line : Option UInt32) (content : String) :
    ∃ before, '\n' ∉ before ∧
      (taggedLine m line content).toList = before ++ separator :: content.toList := by
  have htag := newline_notMem_tag m
  cases line with
  | none => exact ⟨m.tag.toList, htag, by simp [taggedLine]⟩
  | some n =>
    refine ⟨m.tag.toList ++ separator :: (lineMarker n.toNat).toList, ?_, by simp [taggedLine]⟩
    have hmarker := newline_notMem_lineMarker n.toNat
    simp [htag, hmarker, separator]

theorem newline_notMem_taggedLine {content : String} (h : IsLine content) (m : Method)
    (line : Option UInt32) : '\n' ∉ (taggedLine m line content).toList := by
  obtain ⟨before, hbefore, heq⟩ := exists_toList_taggedLine m line content
  rw [heq]
  simp [hbefore, h.1, separator]

/-- A tagged line has no carriage return at its end that could be taken off. -/
theorem withoutCarriageReturn_taggedLine {content : String} (h : IsLine content) (m : Method)
    (line : Option UInt32) :
    withoutCarriageReturn (taggedLine m line content).toList = (taggedLine m line content).toList := by
  obtain ⟨before, -, heq⟩ := exists_toList_taggedLine m line content
  have hlast : (taggedLine m line content).toList.getLast? ≠ some '\r' := by
    rw [heq, List.getLast?_append]
    cases hc : content.toList.getLast? with
    | none => simp [List.getLast?_cons, hc, separator]
    | some c => simpa [List.getLast?_cons, hc] using h.2
  rw [withoutCarriageReturn, if_neg hlast]

/-- The tag of a tagged line gives its method, and the rest is looked through for a marker on demand. -/
theorem Entry.ofLine_taggedLine {content : String} (h : IsLine content) (matchLines : Bool) (m : Method)
    (line : Option UInt32) :
    Entry.ofLine matchLines (taggedLine m line content).toList =
      if matchLines then
        let (line', content') := splitMarker (payload line content).toList
        ⟨m, line', String.ofList content'⟩
      else ⟨m, none, payload line content⟩ := by
  have htagged : (taggedLine m line content).toList =
      m.tag.toList ++ separator :: (payload line content).toList := by
    simp [taggedLine_eq]
  rw [Entry.ofLine, withoutCarriageReturn_taggedLine h, htagged, splitTag_tag]
  cases matchLines <;> simp

/-- The marker of a payload gives its line, and what holds no marker has none. -/
theorem splitMarker_payload {line : Option UInt32} {content : String} (hline : ∀ n ∈ line, 0 < n)
    (hcontent : line = none → ¬ HoldsMarker content.toList) :
    splitMarker (payload line content).toList = (line, content.toList) := by
  cases line with
  | none => exact splitMarker_of_not_holdsMarker (hcontent rfl)
  | some n =>
    have hsplit := splitMarker_lineMarker (hline n rfl) content.toList
    simpa [payload] using hsplit

/-! ## Streams -/

/-- Entries as they go through a stream, each on a line of its own. -/
def stream (es : List Entry) : String :=
  String.join (es.map fun e => taggedLine e.method e.line e.content ++ "\n")

/-- A line that is ended is complete. -/
theorem completeLines_line {line : List Char} (h : '\n' ∉ line) (rest : List Char) :
    completeLines (line ++ '\n' :: rest) =
      (line :: (completeLines rest).1, (completeLines rest).2) := by
  induction line with
  | nil => simp [completeLines]
  | cons c cs ih =>
    have hc : c ≠ '\n' := fun heq => h (by simp [heq])
    have hcs : '\n' ∉ cs := fun hmem => h (by simp [hmem])
    simp [completeLines, ih hcs, hc]

/-- Every entry of a stream is on a complete line. -/
theorem completeLines_stream {es : List Entry} (h : ∀ e ∈ es, IsLine e.content) :
    completeLines (stream es).toList =
      (es.map fun e => (taggedLine e.method e.line e.content).toList, []) := by
  induction es with
  | nil => rfl
  | cons e es ih =>
    have hstream : (stream (e :: es)).toList =
        (taggedLine e.method e.line e.content).toList ++ '\n' :: (stream es).toList := by
      simp [stream]
    have hline := newline_notMem_taggedLine (h e (by simp)) e.method e.line
    rw [hstream, completeLines_line hline, ih fun e he => h e (by simp [he])]
    rfl

namespace LineReader

/-- A reader takes the entries of a stream line by line, wherever the stream is cut. -/
theorem feedAll_start_stream {es : List Entry} (h : ∀ e ∈ es, IsLine e.content) (matchLines : Bool)
    {chunks : List String} (hchunks : String.join chunks = stream es) :
    (start matchLines).feedAll chunks =
      (es.map fun e => Entry.ofLine matchLines (taggedLine e.method e.line e.content).toList,
        start matchLines) := by
  rw [feedAll_eq_feed_join (by simp [start]), hchunks, feed]
  simp [start, completeLines_stream h]

/-- **Entries that go through a stream are read back**, wherever the stream is cut. A reader that looks for
markers returns the entries that were written, and keeps nothing. A line is a number of the source, so it is
not zero, and a content without a line must not hold a marker. A reader that does not look for markers
returns what stands behind the tags, whatever that holds. -/
theorem feedAll_stream {es : List Entry} (hlines : ∀ e ∈ es, IsLine e.content) {chunks : List String}
    (hchunks : String.join chunks = stream es) :
    ((∀ e ∈ es, (∀ n ∈ e.line, 0 < n) ∧ (e.line = none → ¬ HoldsMarker e.content.toList)) →
      (start true).feedAll chunks = (es, start true)) ∧
    (start false).feedAll chunks =
      (es.map fun e => ⟨e.method, none, payload e.line e.content⟩, start false) ∧
    ∀ e ∈ es, taggedLine e.method e.line e.content =
      e.method.tag ++ String.singleton separator ++ payload e.line e.content := by
  refine ⟨fun hmarkers => ?_, ?_, fun e _ => taggedLine_eq ..⟩
  · have hread : ∀ e ∈ es,
        Entry.ofLine true (taggedLine e.method e.line e.content).toList = id e := by
      intro e he
      obtain ⟨hline, hcontent⟩ := hmarkers e he
      rw [Entry.ofLine_taggedLine (hlines e he), if_pos rfl, splitMarker_payload hline hcontent]
      simp
    rw [feedAll_start_stream hlines true hchunks, List.map_congr_left hread, List.map_id]
  · have hread : ∀ e ∈ es, Entry.ofLine false (taggedLine e.method e.line e.content).toList =
        ⟨e.method, none, payload e.line e.content⟩ := by
      intro e he
      rw [Entry.ofLine_taggedLine (hlines e he)]
      rfl
    rw [feedAll_start_stream hlines false hchunks, List.map_congr_left hread]

/-- Contents that hold a tag, a marker or a piece of one, in chunks that are cut within a marker and within
a tag. -/
theorem feedAll_stream_cut :
    let es : List Entry :=
      [⟨.error, some 4294967295, " [LINE_MARKER:5] __LOG__"⟩, ⟨.log, none, " [LINE_MARKER:x] 7"⟩,
        ⟨.warn, none, ""⟩]
    let chunks : List String :=
      ["__ERR__ [LINE_MARK", "ER:4294967295]  [LINE_MARKER:5] __LOG__\n__LOG__  [LINE_MARKER:x] 7\n__WR",
        "N__ \n"]
    (∀ e ∈ es, IsLine e.content) ∧ String.join chunks = stream es ∧
      (∀ e ∈ es, (∀ n ∈ e.line, 0 < n) ∧ (e.line = none → ¬ HoldsMarker e.content.toList)) ∧
      (start true).feedAll chunks = (es, start true) ∧
      (start false).feedAll chunks =
        (es.map fun e => ⟨e.method, none, payload e.line e.content⟩, start false) := by
  intro es chunks
  have hlines : ∀ e ∈ es, IsLine e.content := by
    simp only [IsLine]
    decide
  have hchunks : String.join chunks = stream es := by decide
  have hmarkers : ∀ e ∈ es,
      (∀ n ∈ e.line, 0 < n) ∧ (e.line = none → ¬ HoldsMarker e.content.toList) := by
    have hline : ∀ n ∈ some (4294967295 : UInt32), 0 < n := by
      rintro _ ⟨⟩
      decide
    have hnone : ∀ n ∈ (none : Option UInt32), 0 < n := by
      rintro _ ⟨⟩
    simp only [es, List.forall_mem_cons, List.not_mem_nil, false_implies, implies_true, and_true,
      ← firstMarker?_eq_none_iff]
    exact ⟨⟨hline, by decide⟩, ⟨hnone, by decide⟩, hnone, by decide⟩
  obtain ⟨hon, hoff, -⟩ := feedAll_stream hlines hchunks
  exact ⟨hlines, hchunks, hmarkers, hon hmarkers, hoff⟩

end LineReader

end Scratchpad.Log
