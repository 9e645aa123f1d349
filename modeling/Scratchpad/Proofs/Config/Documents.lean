import Scratchpad.Proofs.Config.Reading

/-!
# Documents of a configuration

A configuration is read back from the document that it is written as. It is also read back if settings have been taken
out of the document that are as they are by default, and with them the tables that have no others.

## Main definitions

* `tables`: the tables that a configuration is written as.
* `Abridged`: the documents that are left of tables if settings are taken out that are as they are by default.

## Main statements

* `reads_back`: a configuration is read back from what is left of its document.
-/

namespace Scratchpad.Config

open Toml

/-! ## Documents that are left -/

/-- The tables that a configuration is written as. -/
def tables (c : Config) : List (String × List (String × String)) :=
  [("run", c.running.written), ("auto_run", c.rerunning.written),
    ("env", c.environment.bindings.map fun (name, value) => (name, writtenText value))]

/-- A setting of a table is as it is by default. -/
def IsDefault (name : String) (setting : String × String) : Prop :=
  ∃ settings, (name, settings) ∈ tables {} ∧ setting ∈ settings

/-- Documents that are left of tables if settings are taken out that are as they are by default, and tables that have no
others. Lines between the tables may be empty. -/
inductive Abridged : List (String × List (String × String)) → String → Prop
  | nil : Abridged [] ""
  | emptyLine {ts : List (String × List (String × String))} {rest : String} :
    Abridged ts rest → Abridged ts ("\n" ++ rest)
  | table {ts : List (String × List (String × String))} {rest name : String} {settings kept : List (String × String)} :
    kept.Sublist settings → (∀ s ∈ settings, s ∈ kept ∨ IsDefault name s) → Abridged ts rest →
    Abridged ((name, settings) :: ts) (writtenTable name kept ++ rest)
  | noTable {ts : List (String × List (String × String))} {rest name : String} {settings : List (String × String)} :
    (∀ s ∈ settings, IsDefault name s) → Abridged ts rest → Abridged ((name, settings) :: ts) rest

/-- Nothing has to be taken out. -/
theorem abridged_writtenTables (ts : List (String × List (String × String))) : Abridged ts (writtenTables ts) := by
  have hall (t : String × List (String × String)) : ∀ s ∈ t.2, s ∈ t.2 ∨ IsDefault t.1 s := fun _ hs => .inl hs
  induction ts with
  | nil => exact .nil
  | cons t ts ih =>
    cases ts with
    | nil => simpa [writtenTables] using Abridged.table (.refl _) (hall t) .nil
    | cons t' ts =>
      have h := Abridged.table (.refl _) (hall t) ih.emptyLine
      simpa [writtenTables, String.intercalate_cons_cons, String.append_assoc] using h

/-! ## What documents that are left say -/

/-- The settings of a table that have been kept are all that are not as they are by default. -/
structure Keeps (part : String × List Setting) (kept : List Setting) : Prop where
  sublist : kept.Sublist part.2
  isDefault : ∀ s ∈ part.2, s.spelling ∈ kept.map Setting.spelling ∨ IsDefault part.1 s.spelling

/-- Tables that are left of parts. -/
structure Leaves (parts : List (String × List Setting)) (left : List Table) : Prop where
  names : (left.map Table.name).Sublist (parts.map Prod.fst)
  sound : ∀ t ∈ left, ∃ part ∈ parts, ∃ kept, Keeps part kept ∧ t = ⟨part.1, kept.map Setting.meaning⟩
  complete : ∀ part ∈ parts, (∃ t ∈ left, t.name = part.1) ∨ Keeps part []

namespace Leaves

variable {parts : List (String × List Setting)} {left : List Table} {part : String × List Setting}

theorem nil : Leaves [] [] := ⟨.slnil, by simp, by simp⟩

theorem table (h : Leaves parts left) {kept : List Setting} (hkept : Keeps part kept) :
    Leaves (part :: parts) (⟨part.1, kept.map Setting.meaning⟩ :: left) where
  names := h.names.cons_cons _
  sound := by
    refine List.forall_mem_cons.mpr ⟨⟨part, List.mem_cons_self, kept, hkept, rfl⟩, fun t ht => ?_⟩
    obtain ⟨p, hp, hrest⟩ := h.sound t ht
    exact ⟨p, List.mem_cons_of_mem _ hp, hrest⟩
  complete := by
    refine List.forall_mem_cons.mpr ⟨.inl ⟨_, List.mem_cons_self, rfl⟩, fun p hp => ?_⟩
    exact (h.complete p hp).imp_left fun ⟨t, ht, hname⟩ => ⟨t, List.mem_cons_of_mem _ ht, hname⟩

theorem noTable (h : Leaves parts left) (hkept : Keeps part []) : Leaves (part :: parts) left where
  names := h.names.cons _
  sound t ht := by
    obtain ⟨p, hp, hrest⟩ := h.sound t ht
    exact ⟨p, List.mem_cons_of_mem _ hp, hrest⟩
  complete := List.forall_mem_cons.mpr ⟨.inr hkept, h.complete⟩

end Leaves

/-- A document that is left says the tables that are left. -/
theorem Abridged.says {parts : List (String × List Setting)} {text : String}
    (h : Abridged (parts.map fun p => (p.1, p.2.map Setting.spelling)) text)
    (hread : ∀ part ∈ parts, ∀ s ∈ part.2, s.IsRead) :
    ∃ left, Leaves parts left ∧ Says text.toList (left.flatMap Table.lines) := by
  generalize hts : (parts.map fun p => (p.1, p.2.map Setting.spelling)) = ts at h
  induction h generalizing parts with
  | nil =>
    obtain rfl := List.map_eq_nil_iff.mp hts
    exact ⟨[], .nil, .nil⟩
  | emptyLine _ ih =>
    obtain ⟨left, hleft, hsays⟩ := ih hread hts
    exact ⟨left, hleft, by simpa using hsays.blank⟩
  | table hsublist hdefault _ ih =>
    obtain ⟨part, parts, rfl, hpart, hrest⟩ := List.map_eq_cons_iff.mp hts
    obtain ⟨rfl, rfl⟩ := Prod.mk.inj hpart
    obtain ⟨hpart, hparts⟩ := List.forall_mem_cons.mp hread
    obtain ⟨left, hleft, hsays⟩ := ih hparts hrest
    obtain ⟨kept, hkept, rfl⟩ := List.sublist_map_iff.mp hsublist
    have htable := hsays.table part.1 fun s hs => hpart s (hkept.subset hs)
    exact ⟨_, hleft.table ⟨hkept, fun s hs => hdefault _ (List.mem_map_of_mem hs)⟩, by simpa using htable⟩
  | noTable hdefault _ ih =>
    obtain ⟨part, parts, rfl, hpart, hrest⟩ := List.map_eq_cons_iff.mp hts
    obtain ⟨rfl, rfl⟩ := Prod.mk.inj hpart
    obtain ⟨left, hleft, hsays⟩ := ih (List.forall_mem_cons.mp hread).2 hrest
    have hkept : Keeps part [] := ⟨List.nil_sublist _, fun s hs => .inr (hdefault _ (List.mem_map_of_mem hs))⟩
    exact ⟨left, hleft.noTable hkept, hsays⟩

/-! ## Parts that are left -/

/-- The parts of a configuration, with what their settings mean. -/
def parts (c : Config) : List (String × List Setting) :=
  [("run", c.running.members), ("auto_run", c.rerunning.members), ("env", bound c.environment)]

theorem tables_eq (c : Config) : c.tables = c.parts.map fun p => (p.1, p.2.map Setting.spelling) := by
  simp [tables, parts, bound, Running.written_eq, Rerunning.written_eq, Setting.spelling]

theorem isRead_of_mem_parts (c : Config) : ∀ part ∈ c.parts, ∀ s ∈ part.2, s.IsRead := by
  simp only [parts, List.forall_mem_cons, List.not_mem_nil, false_implies, implies_true, and_true]
  exact ⟨c.running.isRead_of_mem, c.rerunning.isRead_of_mem, isRead_of_mem_bound c.environment⟩

/-- No two settings of a part have the same name. -/
theorem nodup_parts {c : Config} (h : c.environment.IsOrdered) : ∀ part ∈ c.parts, (part.2.map Setting.name).Nodup := by
  simp only [parts, List.forall_mem_cons, List.not_mem_nil, false_implies, implies_true, and_true]
  refine ⟨?_, ?_, ?_⟩
  · change ["match_lines", "flush_interval_ms", "high_water_mark", "node", "entry_file"].Nodup
    decide
  · change ["enabled", "delay_ms"].Nodup
    decide
  · rw [bound, List.map_map]
    refine List.pairwise_map.mpr (h.imp fun {b c} hlt heq => ?_)
    rw [show b.1 = c.1 from heq] at hlt
    exact String.lt_irrefl _ hlt

/-- The part that says how a source is run is read back from the settings of it that are left. -/
theorem Keeps.running {r : Running} {kept : List Setting} (h : Keeps ("run", r.members) kept) {entries : Entries}
    (hentries : Holds IsSetting entries (kept.map Setting.meaning)) : ofEntries Running.fields {} entries = .ok r := by
  refine Running.ofEntries_eq h.sublist (fun s hs => (h.isDefault s hs).imp_right ?_) hentries
  rintro ⟨settings, hmem, hs⟩
  simp [tables] at hmem
  rwa [hmem, Running.written_eq] at hs

/-- The part that says when a source is run again is read back from the settings of it that are left. -/
theorem Keeps.rerunning {r : Rerunning} {kept : List Setting} (h : Keeps ("auto_run", r.members) kept)
    {entries : Entries} (hentries : Holds IsSetting entries (kept.map Setting.meaning)) :
    ofEntries Rerunning.fields {} entries = .ok r := by
  refine Rerunning.ofEntries_eq h.sublist (fun s hs => (h.isDefault s hs).imp_right ?_) hentries
  rintro ⟨settings, hmem, hs⟩
  simp [tables] at hmem
  rwa [hmem, Rerunning.written_eq] at hs

/-- An environment is read back from what is left of it, because nothing is bound by default. -/
theorem Keeps.bound {e : Environment} {kept : List Setting} (h : Keeps ("env", bound e) kept) (he : e.IsOrdered)
    (span : Span) {entries : Entries} (hentries : Holds IsSetting entries (kept.map Setting.meaning)) :
    environmentOf (span, .table .headed entries) = .ok e := by
  refine environmentOf_eq he h.sublist (fun s hs => (h.isDefault s hs).resolve_right ?_) span hentries
  rintro ⟨settings, hmem, hs⟩
  simp [tables] at hmem
  rw [hmem] at hs
  cases hs

/-! ## The whole configuration -/

/-- Two configurations are alike in a part. -/
structure Alike (name : String) (a c : Config) : Prop where
  running : name = "run" → a.running = c.running
  rerunning : name = "auto_run" → a.rerunning = c.rerunning
  environment : name = "env" → a.environment = c.environment

/-- What is left of a part is read into a configuration, whose other parts stay as they are. -/
theorem entryStep_eq {c : Config} (h : c.environment.IsOrdered) {part : String × List Setting} (hpart : part ∈ c.parts)
    {kept : List Setting} (hkept : Keeps part kept) {inner : Entries}
    (hinner : Holds IsSetting inner (kept.map Setting.meaning)) (a : Config) (span : Span) :
    ∃ a', entryStep fields a (part.1, span, .table .headed inner) = .ok a' ∧ Alike part.1 a' c ∧
      ∀ name, Alike name a c → Alike name a' c := by
  simp only [parts, List.mem_cons, List.not_mem_nil, or_false] at hpart
  obtain rfl | rfl | rfl := hpart
  · refine ⟨{ a with running := c.running }, ?_, ⟨fun _ => rfl, by simp, by simp⟩,
      fun name hname => ⟨fun _ => rfl, hname.rerunning, hname.environment⟩⟩
    change (do return { a with running := ← ofEntries Running.fields {} inner }) = _
    rw [hkept.running hinner]
    rfl
  · refine ⟨{ a with rerunning := c.rerunning }, ?_, ⟨by simp, fun _ => rfl, by simp⟩,
      fun name hname => ⟨hname.running, fun _ => rfl, hname.environment⟩⟩
    change (do return { a with rerunning := ← ofEntries Rerunning.fields {} inner }) = _
    rw [hkept.rerunning hinner]
    rfl
  · refine ⟨{ a with environment := c.environment }, ?_, ⟨by simp, by simp, fun _ => rfl⟩,
      fun name hname => ⟨hname.running, hname.rerunning, fun _ => rfl⟩⟩
    change (do return { a with environment := ← environmentOf (span, .table .headed inner) }) = _
    rw [hkept.bound h span hinner]
    rfl

/-- A configuration of which nothing is left is as it is by default. -/
theorem alike_default {c : Config} (h : c.environment.IsOrdered) {name : String}
    (hmissing : ∀ part ∈ c.parts, part.1 = name → Keeps part []) : Alike name {} c where
  running hname := Except.ok.inj ((hmissing ("run", _) (by simp [parts]) hname.symm).running .nil)
  rerunning hname := Except.ok.inj ((hmissing ("auto_run", _) (by simp [parts]) hname.symm).rerunning .nil)
  environment hname := Except.ok.inj ((hmissing ("env", _) (by simp [parts]) hname.symm).bound h default .nil)

/-- A configuration is read back from the tables that are left of it. -/
theorem ofTable_eq {c : Config} (h : c.environment.IsOrdered) {left : List Table} (hleft : Leaves c.parts left)
    {entries : Entries} (hentries : Holds IsTable entries left) : ofTable entries = .ok c := by
  have halike : ∃ a, entries.foldlM (entryStep fields) {} = .ok a ∧ ∀ name, Alike name a c := by
    refine foldlM_of_agrees ?_ fun name hname => alike_default h fun part hpart hpartName => ?_
    · rintro ⟨_, span, _⟩ he a
      obtain ⟨t, ht, rfl, inner, rfl, hinner⟩ := hentries.sound _ he
      obtain ⟨part, hpart, kept, hkept, rfl⟩ := hleft.sound t ht
      exact entryStep_eq h hpart hkept hinner a span
    · refine (hleft.complete part hpart).resolve_left ?_
      rintro ⟨t, ht, htname⟩
      obtain ⟨e, he, htable⟩ := hentries.complete t ht
      exact hname e he (htable.1.trans (htname.trans hpartName))
  obtain ⟨a, hfold, ha⟩ := halike
  have hrunning := (ha "run").running rfl
  have hrerunning := (ha "auto_run").rerunning rfl
  have henvironment := (ha "env").environment rfl
  rw [ofTable, ofEntries_eq_foldlM, hfold]
  cases a
  cases c
  simp_all

/-- A configuration is read back from what is left of its document. -/
theorem Abridged.ofText_eq {c : Config} {document : String} (habridged : Abridged c.tables document)
    (h : c.environment.IsOrdered) : ofText document = .ok c := by
  rw [tables_eq] at habridged
  obtain ⟨left, hleft, hsays⟩ := habridged.says c.isRead_of_mem_parts
  have hnames : (left.map Table.name).Nodup := hleft.names.nodup (by simp [parts])
  have hsettings : ∀ t ∈ left, (t.settings.map (·.1)).Nodup := fun t ht => by
    obtain ⟨part, hpart, kept, hkept, rfl⟩ := hleft.sound t ht
    rw [List.map_map]
    exact (hkept.sublist.map _).nodup (nodup_parts h part hpart)
  obtain ⟨entries, hread, hentries⟩ := hsays.ofText hnames hsettings
  have htable : Document.ofText document.toList >>= ofTable = .ok c := by
    rw [hread]
    exact ofTable_eq h hleft hentries
  rw [ofText, htable]

/-- **A configuration is read back** from the document that it is written as, and from every document that is left of it
if settings are taken out that are as they are by default, whatever its numbers and texts are. -/
theorem reads_back {c : Config} (h : c.environment.IsOrdered) :
    ofText c.written = .ok c ∧ ∀ document, Abridged c.tables document → ofText document = .ok c :=
  ⟨(abridged_writtenTables c.tables).ofText_eq h, fun _ habridged => habridged.ofText_eq h⟩

/-- A configuration that reruns at once and binds two names that have to be quoted. -/
def quoted : Config :=
  { rerunning := { delay := 0 }, environment := .ofList [("a.b", "\"\\"), ("", "line\nline")] }

/-- A document that is left of it. -/
def quotedDocument : String :=
  "[auto_run]\ndelay_ms = 0\n\n[env]\n\"\" = \"\"\"\nline\nline\"\"\"\n\"a.b\" = '\"\\'\n"

theorem reads_back_quoted : quoted.environment.IsOrdered ∧ Abridged quoted.tables quotedDocument ∧
    ofText quoted.written = .ok quoted ∧ ofText quotedDocument = .ok quoted := by
  have hordered : quoted.environment.IsOrdered := Environment.isOrdered_ofList _
  have hrunning : ∀ s ∈ quoted.running.written, IsDefault "run" s := fun s hs => ⟨_, List.mem_cons_self, hs⟩
  have hkept : [("delay_ms", "0")].Sublist quoted.rerunning.written := by decide +kernel
  have hrerunning : ∀ s ∈ quoted.rerunning.written, s ∈ [("delay_ms", "0")] ∨ IsDefault "auto_run" s := by
    intro s hs
    obtain rfl | hs := List.mem_cons.mp hs
    · exact .inr ⟨_, List.mem_cons_of_mem _ List.mem_cons_self, List.mem_cons_self⟩
    · exact .inl hs
  have habridged : Abridged quoted.tables quotedDocument := by
    have hdocument : quotedDocument = writtenTable "auto_run" [("delay_ms", "0")] ++
        ("\n" ++ (writtenTable "env" (quoted.environment.bindings.map fun (name, value) => (name, writtenText value)) ++
          "")) := by
      decide +kernel
    rw [hdocument]
    exact .noTable hrunning (.table hkept hrerunning (.emptyLine (.table (.refl _) (fun _ => .inl) .nil)))
  have hreads := reads_back hordered
  exact ⟨hordered, habridged, hreads.1, hreads.2 _ habridged⟩

/-- A configuration that delivers output after more milliseconds than a signed word can count. -/
def unhurried : Config := { running := { flushInterval := 9223372036854775808 } }

/-- It is written nevertheless, and read back. -/
theorem written_unhurried : ¬ unhurried.running.flushInterval.toNat ≤ 9223372036854775807 ∧
    unhurried.written = "[run]\nmatch_lines = true\nflush_interval_ms = 9223372036854775808\n" ++
      "high_water_mark = 256\nnode = \"node\"\nentry_file = \"index.mjs\"\n\n[auto_run]\nenabled = true\n" ++
      "delay_ms = 1000\n\n[env]\n" ∧
    ofText unhurried.written = .ok unhurried :=
  ⟨by decide, by decide +kernel, (abridged_writtenTables unhurried.tables).ofText_eq Environment.isOrdered_empty⟩

end Scratchpad.Config
