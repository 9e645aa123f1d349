import Mathlib.Data.List.Forall2
import Scratchpad.Proofs.Toml.Lines
import Scratchpad.Toml.Document

/-!
# Tables of a document

A document whose lines say tables, no two of one name and none with two settings of one name, is read as a table that
holds these tables and nothing else, in whatever order.

## Main definitions

* `Holds`: entries that correspond to data.
* `Table`, `Table.lines`, `IsTable`: a table with its settings, the lines that say it, and an entry that holds it.
* `Setting`: a setting with the text of its value.

## Main statements

* `Entries.lookup_put`, `Entries.mem_put`: what a table holds once a value has been put into it.
* `Says.ofText`: a document is read as the tables that its lines say.
* `Says.table`: a table that is written is what its lines say.
-/

namespace Scratchpad.Toml

/-! ## Entries -/

namespace Entries

variable {key : String} {v w : Span × Value} {entries : Entries}

theorem lookup_cons_pair (other key : String) (v : Span × Value) (entries : Entries) :
    ((key, v) :: entries).lookup other = if other = key then some v else entries.lookup other := by
  by_cases h : other = key
  · simp [h]
  · simp [List.lookup_cons, beq_false_of_ne h, h]

theorem lookup_put (key other : String) (v : Span × Value) (entries : Entries) :
    (put key v entries).lookup other = if other = key then some v else entries.lookup other := by
  fun_induction put key v entries with
  | case1 => rw [lookup_cons_pair]
  | case2 w rest => simp only [lookup_cons_pair]; split <;> rfl
  | case3 n w rest hne hlt => simp only [lookup_cons_pair]
  | case4 n w rest hne hlt ih =>
    simp only [lookup_cons_pair, ih]
    grind

/-- What is put under a key takes the place of what was put there before. -/
theorem put_put (key : String) (v w : Span × Value) (entries : Entries) :
    put key w (put key v entries) = put key w entries := by
  induction entries with
  | nil => simp [put]
  | cons e entries ih =>
    simp only [put]
    split
    · simp [put, *]
    split
    · simp [put, *]
    · simp [put, *]

/-- What is put under a new key is added. -/
theorem mem_put (h : entries.lookup key = none) {e : String × Span × Value} :
    e ∈ put key v entries ↔ e = (key, v) ∨ e ∈ entries := by
  fun_induction put key v entries with
  | case1 => simp
  | case2 w rest => simp at h
  | case3 n w rest hne hlt => simp
  | case4 n w rest hne hlt ih =>
    rw [lookup_cons_pair, if_neg hne] at h
    rw [List.mem_cons, ih h, List.mem_cons]
    exact or_left_comm

end Entries

/-! ## What entries hold -/

/-- Entries correspond to data, in whatever order. -/
structure Holds {β : Type} (R : String × Span × Value → β → Prop) (entries : Entries) (bs : List β) : Prop where
  sound : ∀ e ∈ entries, ∃ b ∈ bs, R e b
  complete : ∀ b ∈ bs, ∃ e ∈ entries, R e b

namespace Holds

variable {β : Type} {R : String × Span × Value → β → Prop} {entries : Entries} {bs : List β} {key : String}
  {v : Span × Value} {b : β}

theorem nil : Holds R [] ([] : List β) := ⟨by simp, by simp⟩

theorem put (h : Holds R entries bs) (hkey : entries.lookup key = none) (hb : R (key, v) b) :
    Holds R (entries.put key v) (bs ++ [b]) := by
  refine ⟨fun e he => ?_, fun c hc => ?_⟩
  · obtain rfl | he := (Entries.mem_put hkey).mp he
    · exact ⟨b, by simp, hb⟩
    · obtain ⟨c, hc, hR⟩ := h.sound e he
      exact ⟨c, List.mem_append_left _ hc, hR⟩
  · obtain hc | hc := List.mem_append.mp hc
    · obtain ⟨e, he, hR⟩ := h.complete c hc
      exact ⟨e, (Entries.mem_put hkey).mpr (.inr he), hR⟩
    · obtain rfl := List.mem_singleton.mp hc
      exact ⟨(key, v), (Entries.mem_put hkey).mpr (.inl rfl), hb⟩

/-- If no two data have the same key, the key of one that is still to come is new. -/
theorem lookup_eq_none (h : Holds R entries bs) {keyOf : β → String} (hR : ∀ {e b}, R e b → e.1 = keyOf b)
    {more : List β} (hnodup : ((bs ++ b :: more).map keyOf).Nodup) : entries.lookup (keyOf b) = none := by
  rw [List.map_append, List.nodup_append] at hnodup
  rw [List.lookup_eq_none_iff]
  intro e he
  obtain ⟨c, hc, hRc⟩ := h.sound e he
  have hne := hnodup.2.2 (keyOf c) (List.mem_map_of_mem hc) (keyOf b) List.mem_cons_self
  rw [hR hRc, bne_iff_ne]
  exact hne.symm

end Holds

/-! ## Tables -/

/-- A table with its settings. -/
structure Table where
  name : String
  settings : List (String × Value)

/-- The lines that say a table. -/
def Table.lines (t : Table) : List Line := .heading t.name :: t.settings.map fun s => .setting s.1 s.2

/-- An entry that holds a setting. -/
def IsSetting (e : String × Span × Value) (s : String × Value) : Prop := e.1 = s.1 ∧ e.2.2 = s.2

/-- An entry that holds a table. -/
def IsTable (e : String × Span × Value) (t : Table) : Prop :=
  e.1 = t.name ∧ ∃ entries, e.2.2 = .table .headed entries ∧ Holds IsSetting entries t.settings

namespace Document

variable {s : Statement} {entries inner : Entries} {n : Name} {span : Span} {name : String} {v : Value}

theorem namesOf_singleton {t : Token} (h : nameOf t = .ok name) : namesOf [t] = .ok [⟨name, t.span⟩] := by
  simp [namesOf, h]

/-- A heading opens a new table. -/
theorem add_heading (hs : States s (.heading name)) (current : List Name) (h : entries.lookup name = none) :
    ∃ span n, n.text = name ∧
      add ⟨entries, current⟩ s = .ok ⟨entries.put name (span, .table .headed []), [n]⟩ := by
  cases hs with
  | @heading t _ span hname =>
    refine ⟨span, ⟨name, t.span⟩, rfl, ?_⟩
    have hopen : openTable ⟨name, t.span⟩ span .headed entries = .ok (entries.put name (span, .table .headed [])) := by
      simp only [openTable, h]
    have hwithin : entries.within false (openTable ⟨name, t.span⟩ span) [] .headed =
        .ok (entries.put name (span, .table .headed [])) := hopen
    simp only [add, namesOf_singleton hname]
    change (entries.within false (openTable ⟨name, t.span⟩ span) [] .headed >>= fun es =>
      pure (⟨es, [⟨name, t.span⟩]⟩ : Document)) = _
    rw [hwithin]
    rfl

/-- A setting is added to the table that has been opened. -/
theorem add_setting (hs : States s (.setting name v)) (h : inner.lookup name = none) (entries : Entries) (n : Name)
    (span : Span) :
    ∃ place, add ⟨entries.put n.text (span, .table .headed inner), [n]⟩ s =
      .ok ⟨entries.put n.text (span, .table .headed (inner.put name (place, v))), [n]⟩ := by
  cases hs with
  | @setting t u _ _ hname hvalue =>
    refine ⟨u.span, ?_⟩
    have hset : inner.set [⟨name, t.span⟩] (u.span, v) .headed = .ok (inner.put name (u.span, v)) := by
      simp [Entries.set, splitKey, Entries.within, Entries.addTo, h]
    have hwithin : (entries.put n.text (span, .table .headed inner)).within false
        (fun o es => es.set [⟨name, t.span⟩] (u.span, v) o) [n] .headed =
        .ok (entries.put n.text (span, .table .headed (inner.put name (u.span, v)))) := by
      rw [Entries.within, Entries.lookup_put, if_pos rfl]
      simp only [Entries.within, hset]
      rw [if_neg (by decide), if_neg (by simp)]
      exact congrArg Except.ok (Entries.put_put _ _ _ entries)
    have hvalue' : (Expression.scalar u).value = .ok v := hvalue
    simp only [add, namesOf_singleton hname, hvalue']
    change ((entries.put n.text (span, .table .headed inner)).within false
      (fun o es => es.set [⟨name, t.span⟩] (u.span, v) o) [n] .headed >>= fun es => pure (⟨es, [n]⟩ : Document)) = _
    rw [hwithin]
    rfl

/-- The settings of a table are added to it. -/
theorem foldlM_settings (entries : Entries) (n : Name) (span : Span) {ss : List Statement}
    {more done : List (String × Value)} (hss : List.Forall₂ States ss (more.map fun s => .setting s.1 s.2))
    (hinner : Holds IsSetting inner done)
    (hnodup : ((done ++ more).map (·.1)).Nodup) :
    ∃ inner', ss.foldlM add ⟨entries.put n.text (span, .table .headed inner), [n]⟩ =
      .ok ⟨entries.put n.text (span, .table .headed inner'), [n]⟩ ∧ Holds IsSetting inner' (done ++ more) := by
  induction more generalizing ss inner done with
  | nil =>
    cases hss
    exact ⟨inner, rfl, by rwa [List.append_nil]⟩
  | cons setting more ih =>
    obtain ⟨s, ss', hs, hss', rfl⟩ := List.forall₂_cons_right_iff.mp hss
    have hnew : inner.lookup setting.1 = none := hinner.lookup_eq_none And.left hnodup
    obtain ⟨place, hadd⟩ := add_setting hs hnew entries n span
    have hput := hinner.put (v := (place, setting.2)) hnew (b := setting) ⟨rfl, rfl⟩
    obtain ⟨inner', hfold, hinner'⟩ := ih hss' hput (by simpa using hnodup)
    refine ⟨inner', ?_, by simpa using hinner'⟩
    rw [List.foldlM_cons, hadd]
    exact hfold

/-- The tables of a document are added to those before them. -/
theorem foldlM_tables {ss : List Statement} {more done : List Table}
    (hss : List.Forall₂ States ss (more.flatMap Table.lines)) {entries : Entries}
    (hentries : Holds IsTable entries done)
    (hnodup : ((done ++ more).map Table.name).Nodup) (hsettings : ∀ t ∈ more, (t.settings.map (·.1)).Nodup)
    (current : List Name) :
    ∃ d : Document, ss.foldlM add ⟨entries, current⟩ = .ok d ∧ Holds IsTable d.entries (done ++ more) := by
  induction more generalizing ss entries done current with
  | nil =>
    cases hss
    exact ⟨_, rfl, by rwa [List.append_nil]⟩
  | cons t more ih =>
    rw [List.flatMap_cons] at hss
    have hblock := List.forall₂_take_append _ _ _ hss
    have hrest := List.forall₂_drop_append _ _ _ hss
    rw [← List.take_append_drop t.lines.length ss, List.foldlM_append]
    obtain ⟨s, ss', hs, hss', htake⟩ := List.forall₂_cons_right_iff.mp hblock
    have hnew : entries.lookup t.name = none := hentries.lookup_eq_none And.left hnodup
    obtain ⟨htable, htables⟩ := List.forall_mem_cons.mp hsettings
    obtain ⟨span, n, hn, hadd⟩ := add_heading hs current hnew
    obtain ⟨inner, hfold, hinner⟩ := foldlM_settings entries n span hss' .nil htable
    have hput := hentries.put (v := (span, .table .headed inner)) hnew (b := t) ⟨rfl, inner, rfl, hinner⟩
    obtain ⟨d, hmore, hd⟩ := ih hrest hput (by simpa using hnodup) htables [n]
    refine ⟨d, ?_, by simpa using hd⟩
    rw [htake, List.foldlM_cons, hadd, ← hn]
    change (do (ss.drop t.lines.length).foldlM add (← ss'.foldlM add ⟨_, [n]⟩)) = _
    rw [hfold, hn]
    exact hmore

end Document

/-- A text that says tables does not begin with an encoding mark. -/
theorem Says.head?_ne {cs : List Char} {tables : List Table} (h : Says cs (tables.flatMap Table.lines)) :
    cs.head? ≠ some Text.encodingMark := by
  generalize hlines : tables.flatMap Table.lines = lines at h
  cases h with
  | nil => simp
  | blank _ => exact fun hhead => absurd (Option.some.inj hhead) (by decide)
  | heading _ _ => exact fun hhead => absurd (Option.some.inj hhead) (by decide)
  | setting _ _ _ =>
    cases tables with
    | nil => cases hlines
    | cons t tables => cases hlines

/-- **A document is read as the tables that its lines say.** -/
theorem Says.ofText {cs : List Char} {tables : List Table} (h : Says cs (tables.flatMap Table.lines))
    (hnodup : (tables.map Table.name).Nodup) (hsettings : ∀ t ∈ tables, (t.settings.map (·.1)).Nodup) :
    ∃ entries, Document.ofText cs = .ok entries ∧ Holds IsTable entries tables := by
  obtain ⟨ss, hstatements, hss⟩ := h.statements h.head?_ne
  obtain ⟨d, hfold, hd⟩ := Document.foldlM_tables hss .nil hnodup hsettings []
  refine ⟨d.entries, ?_, hd⟩
  rw [Document.ofText, hstatements]
  change (do return (← ss.foldlM Document.add (⟨[], []⟩ : Document)).entries) = _
  rw [hfold]
  rfl

/-! ## Written tables -/

/-- A setting with the text of its value, and the value that is read from this text. -/
structure Setting where
  name : String
  text : String
  value : Value

namespace Setting

/-- A setting as it is written. -/
def spelling (s : Setting) : String × String := (s.name, s.text)

/-- A setting as it is read. -/
def meaning (s : Setting) : String × Value := (s.name, s.value)

/-- A setting is read as it is meant. -/
def IsRead (s : Setting) : Prop := Reads scalarOf s.text s.value

/-- Settings that are written alike mean the same. -/
theorem IsRead.meaning_mem {s : Setting} (hs : s.IsRead) {settings : List Setting} (h : ∀ t ∈ settings, t.IsRead)
    (hmem : s.spelling ∈ settings.map spelling) : s.meaning ∈ settings.map meaning := by
  obtain ⟨t, ht, hspelling⟩ := List.mem_map.mp hmem
  refine List.mem_map.mpr ⟨t, ht, ?_⟩
  have hname : t.name = s.name := congrArg Prod.fst hspelling
  have htext : t.text = s.text := congrArg Prod.snd hspelling
  exact Prod.ext hname (Reads.unique (htext ▸ h t ht) hs)

end Setting

/-- Settings that are written are what their lines say. -/
theorem Says.settings {cs : List Char} {lines : List Line} (h : Says cs lines) {settings : List Setting}
    (hsettings : ∀ s ∈ settings, s.IsRead) :
    Says ((String.join ((settings.map Setting.spelling).map fun (n, v) => writtenSetting n v)).toList ++ cs)
      (((settings.map Setting.meaning).map fun s => .setting s.1 s.2) ++ lines) := by
  induction settings with
  | nil => simpa using h
  | cons s settings ih =>
    obtain ⟨hs, hsettings⟩ := List.forall_mem_cons.mp hsettings
    have hline := Says.setting (reads_writtenName s.name) hs (ih hsettings)
    simpa [writtenSetting, Setting.spelling, Setting.meaning] using hline

/-- A table that is written is what its lines say. -/
theorem Says.table {cs : List Char} {lines : List Line} (h : Says cs lines) (name : String) {settings : List Setting}
    (hsettings : ∀ s ∈ settings, s.IsRead) :
    Says ((writtenTable name (settings.map Setting.spelling)).toList ++ cs)
      (Table.lines ⟨name, settings.map Setting.meaning⟩ ++ lines) := by
  have hheading := Says.heading (reads_writtenName name) (h.settings hsettings)
  simpa [writtenTable, Table.lines] using hheading

end Scratchpad.Toml
