import Scratchpad.Config.Reading
import Scratchpad.Config.Written
import Scratchpad.Proofs.Basic
import Scratchpad.Proofs.Environment
import Scratchpad.Proofs.Toml.Tables

/-!
# Parts of a configuration read back

Each part of a configuration is read back from a table that holds its settings, also if settings are missing that are
as they are by default. The order in which the settings are read makes no difference, because each one decides about
something of its own.

## Main definitions

* `Running.members`, `Rerunning.members`: the settings of a part, with what they mean.

## Main statements

* `foldlM_of_agrees`: what is read from entries each of which decides about something of its own.
* `Running.ofEntries_eq`, `Rerunning.ofEntries_eq`, `environmentOf_eq`: the parts are read back.
* `isOrdered_of_ofText`: the environment of every configuration that is read is ordered.
-/

namespace Scratchpad.Config

open Toml

/-! ## Reading entries one after another -/

/-- What every entry keeps is kept by all of them. -/
theorem foldlM_induction {α : Type} {step : α → String × Span × Value → Except Misfit α} {P : α → Prop}
    (hstep : ∀ a e a', P a → step a e = .ok a' → P a') {entries : Entries} {a a' : α} (ha : P a)
    (h : entries.foldlM step a = .ok a') : P a' := by
  induction entries generalizing a with
  | nil => exact Except.ok.inj h ▸ ha
  | cons e entries ih =>
    rw [List.foldlM_cons] at h
    obtain ⟨b, he, h⟩ := exists_of_bind_eq_ok h
    exact ih (hstep a e b ha he) h

/-- If every entry makes something agree and keeps what agrees already, in the end everything agrees of which there is
an entry or which agreed from the start. -/
theorem foldlM_of_agrees {α : Type} {step : α → String × Span × Value → Except Misfit α} {Agrees : String → α → Prop}
    {entries : Entries} {start : α}
    (hstep : ∀ e ∈ entries, ∀ a, ∃ a', step a e = .ok a' ∧ Agrees e.1 a' ∧ ∀ key, Agrees key a → Agrees key a')
    (hstart : ∀ key, (∀ e ∈ entries, e.1 ≠ key) → Agrees key start) :
    ∃ a, entries.foldlM step start = .ok a ∧ ∀ key, Agrees key a := by
  induction entries generalizing start with
  | nil => exact ⟨start, rfl, fun key => hstart key (by simp)⟩
  | cons e entries ih =>
    obtain ⟨he, hentries⟩ := List.forall_mem_cons.mp hstep
    obtain ⟨a, hok, hagrees, hkeeps⟩ := he start
    have hnext : ∀ key, (∀ e ∈ entries, e.1 ≠ key) → Agrees key a := fun key hkey => by
      by_cases heq : e.1 = key
      · exact heq ▸ hagrees
      · exact hkeeps key (hstart key (List.forall_mem_cons.mpr ⟨heq, hkey⟩))
    obtain ⟨b, hfold, hb⟩ := ih hentries hnext
    refine ⟨b, ?_, hb⟩
    rw [List.foldlM_cons, hok]
    exact hfold

/-- One entry of a table is read. -/
def entryStep {α : Type} (fields : List (Field α)) (a : α) (e : String × Span × Value) : Except Misfit α :=
  match fields.find? (·.key = e.1) with
  | some f => f.update a e.2
  | none => do passedOver e.2.1 e.2.2; return a

/-- An entry updates a field, or it means nothing. -/
theorem entryStep_cases {α : Type} {fields : List (Field α)} {a a' : α} {e : String × Span × Value}
    (h : entryStep fields a e = .ok a') : (∃ f ∈ fields, f.update a e.2 = .ok a') ∨ a' = a := by
  rw [entryStep] at h
  split at h
  · rename_i f hf
    exact .inl ⟨f, List.mem_of_find?_eq_some hf, h⟩
  · obtain ⟨-, -, h⟩ := exists_of_bind_eq_ok h
    cases h
    exact .inr rfl

theorem ofEntries_eq_foldlM {α : Type} (fields : List (Field α)) (start : α) (entries : Entries) :
    ofEntries fields start entries = entries.foldlM (entryStep fields) start := rfl

/-- A part is read back from the settings that have been kept if those that are missing are as they are by default. -/
theorem ofEntries_eq {α : Type} {fields : List (Field α)} {start target : α} {members : α → List Setting}
    (hread : ∀ a, ∀ s ∈ members a, s.IsRead)
    (hupdate : ∀ s ∈ members target, ∀ a span, ∃ a', entryStep fields a (s.name, span, s.value) = .ok a' ∧
      ∀ t ∈ members target, t.name = s.name ∨ t.meaning ∈ (members a).map Setting.meaning →
        t.meaning ∈ (members a').map Setting.meaning)
    (hext : ∀ a, (∀ t ∈ members target, t.meaning ∈ (members a).map Setting.meaning) → a = target)
    {kept : List Setting} (hkept : kept.Sublist (members target))
    (hmissing : ∀ s ∈ members target, s.spelling ∈ kept.map Setting.spelling ∨
      s.spelling ∈ (members start).map Setting.spelling)
    {entries : Entries} (hentries : Holds IsSetting entries (kept.map Setting.meaning)) :
    ofEntries fields start entries = .ok target := by
  have hagrees : ∃ a, entries.foldlM (entryStep fields) start = .ok a ∧
      ∀ key, ∀ t ∈ members target, t.name = key → t.meaning ∈ (members a).map Setting.meaning := by
    refine foldlM_of_agrees ?_ fun key hkey t ht hname => ?_
    · rintro ⟨_, span, _⟩ he a
      obtain ⟨_, hmem, rfl, rfl⟩ := hentries.sound _ he
      obtain ⟨s, hs, rfl⟩ := List.mem_map.mp hmem
      obtain ⟨a', hok, hall⟩ := hupdate s (hkept.subset hs) a span
      exact ⟨a', hok, fun t ht hname => hall t ht (.inl hname),
        fun key hkey t ht hname => hall t ht (.inr (hkey t ht hname))⟩
    · have hisRead := hread target t ht
      obtain htkept | htstart := hmissing t ht
      · have hmeaning := hisRead.meaning_mem (fun s hs => hread target s (hkept.subset hs)) htkept
        obtain ⟨e, he, hsetting⟩ := hentries.complete _ hmeaning
        exact absurd (hsetting.1.trans hname) (hkey e he)
      · exact hisRead.meaning_mem (hread start) htstart
  obtain ⟨a, hfold, ha⟩ := hagrees
  rw [ofEntries_eq_foldlM, hfold, hext a fun t ht => ha t.name t ht rfl]

/-! ## Running and rerunning -/

theorem word_toNat (expected : String) (span : Span) (n : UInt64) : word expected (span, .whole n.toNat) = .ok n := by
  have hfits : (0 : Int) ≤ n.toNat ∧ (n.toNat : Int) < UInt64.size := ⟨by omega, Int.ofNat_lt.mpr n.toNat_lt⟩
  simp only [word, if_pos hfits, Int.toNat_natCast, UInt64.ofNat_toNat]

theorem reads_word (n : UInt64) : Reads scalarOf (toString n.toNat) (.whole n.toNat) :=
  reads_toString (Nat.lt_trans n.toNat_lt (by decide))

namespace Running

/-- The settings that say how a source is run, with what they mean. -/
def members (r : Running) : List Setting :=
  [⟨"match_lines", writtenBoolean r.matchesLines, .boolean r.matchesLines⟩,
    ⟨"flush_interval_ms", toString r.flushInterval.toNat, .whole r.flushInterval.toNat⟩,
    ⟨"high_water_mark", toString r.mark.toNat, .whole r.mark.toNat⟩,
    ⟨"node", writtenText r.program, .text r.program⟩,
    ⟨"entry_file", writtenText r.entryFile, .text r.entryFile⟩]

theorem written_eq (r : Running) : r.written = r.members.map Setting.spelling := rfl

theorem isRead_of_mem (r : Running) : ∀ s ∈ r.members, s.IsRead := by
  simp only [members, List.forall_mem_cons, List.not_mem_nil, false_implies, implies_true, and_true]
  exact ⟨reads_writtenBoolean _, reads_word _, reads_word _, reads_writtenText _, reads_writtenText _⟩

/-- Each setting decides about a field of its own. -/
theorem update_members (r : Running) : ∀ s ∈ r.members, ∀ a span, ∃ a',
    entryStep fields a (s.name, span, s.value) = .ok a' ∧
      ∀ t ∈ r.members, t.name = s.name ∨ t.meaning ∈ (members a).map Setting.meaning →
        t.meaning ∈ (members a').map Setting.meaning := by
  intro s hs a span
  simp only [members, List.mem_cons, List.not_mem_nil, or_false] at hs
  obtain rfl | rfl | rfl | rfl | rfl := hs
  · refine ⟨{ a with matchesLines := r.matchesLines }, rfl, ?_⟩
    simp +contextual [members, Setting.meaning]
  · have hword := word_toNat "u64" span r.flushInterval
    refine ⟨{ a with flushInterval := r.flushInterval }, ?_, ?_⟩
    · change (do return { a with flushInterval := ← word "u64" (span, .whole r.flushInterval.toNat) }) = _
      rw [hword]
      rfl
    · simp +contextual [members, Setting.meaning]
  · have hword := word_toNat "usize" span r.mark
    refine ⟨{ a with mark := r.mark }, ?_, ?_⟩
    · change (do return { a with mark := ← word "usize" (span, .whole r.mark.toNat) }) = _
      rw [hword]
      rfl
    · simp +contextual [members, Setting.meaning]
  · refine ⟨{ a with program := r.program }, rfl, ?_⟩
    simp +contextual [members, Setting.meaning]
  · refine ⟨{ a with entryFile := r.entryFile }, rfl, ?_⟩
    simp +contextual [members, Setting.meaning]

/-- What is set says all about a part. -/
theorem ext_members (r a : Running) (h : ∀ t ∈ r.members, t.meaning ∈ (members a).map Setting.meaning) : a = r := by
  simp [members, Setting.meaning] at h
  obtain ⟨hmatches, hinterval, hmark, hprogram, hentryFile⟩ := h
  have hinterval : r.flushInterval = a.flushInterval := UInt64.toNat_inj.mp (by omega)
  have hmark : r.mark = a.mark := UInt64.toNat_inj.mp (by omega)
  cases a
  cases r
  simp_all

/-- **The part that says how a source is run is read back**, with settings left out that are as they are by default. -/
theorem ofEntries_eq {r : Running} {kept : List Setting} (hkept : kept.Sublist r.members)
    (hmissing : ∀ s ∈ r.members, s.spelling ∈ kept.map Setting.spelling ∨
      s.spelling ∈ (members {}).map Setting.spelling)
    {entries : Entries} (hentries : Holds IsSetting entries (kept.map Setting.meaning)) :
    ofEntries fields {} entries = .ok r :=
  Config.ofEntries_eq isRead_of_mem r.update_members r.ext_members hkept hmissing hentries

end Running

namespace Rerunning

/-- The settings that say when a source is run again, with what they mean. -/
def members (r : Rerunning) : List Setting :=
  [⟨"enabled", writtenBoolean r.isEnabled, .boolean r.isEnabled⟩,
    ⟨"delay_ms", toString r.delay.toNat, .whole r.delay.toNat⟩]

theorem written_eq (r : Rerunning) : r.written = r.members.map Setting.spelling := rfl

theorem isRead_of_mem (r : Rerunning) : ∀ s ∈ r.members, s.IsRead := by
  simp only [members, List.forall_mem_cons, List.not_mem_nil, false_implies, implies_true, and_true]
  exact ⟨reads_writtenBoolean _, reads_word _⟩

/-- Each setting decides about a field of its own. -/
theorem update_members (r : Rerunning) : ∀ s ∈ r.members, ∀ a span, ∃ a',
    entryStep fields a (s.name, span, s.value) = .ok a' ∧
      ∀ t ∈ r.members, t.name = s.name ∨ t.meaning ∈ (members a).map Setting.meaning →
        t.meaning ∈ (members a').map Setting.meaning := by
  intro s hs a span
  simp only [members, List.mem_cons, List.not_mem_nil, or_false] at hs
  obtain rfl | rfl := hs
  · refine ⟨{ a with isEnabled := r.isEnabled }, rfl, ?_⟩
    simp +contextual [members, Setting.meaning]
  · have hword := word_toNat "u64" span r.delay
    refine ⟨{ a with delay := r.delay }, ?_, ?_⟩
    · change (do return { a with delay := ← word "u64" (span, .whole r.delay.toNat) }) = _
      rw [hword]
      rfl
    · simp +contextual [members, Setting.meaning]

/-- What is set says all about a part. -/
theorem ext_members (r a : Rerunning) (h : ∀ t ∈ r.members, t.meaning ∈ (members a).map Setting.meaning) : a = r := by
  simp [members, Setting.meaning] at h
  have hdelay : r.delay = a.delay := UInt64.toNat_inj.mp (by omega)
  cases a
  cases r
  simp_all

/-- **The part that says when a source is run again is read back**, with settings left out that are as they are by
default. -/
theorem ofEntries_eq {r : Rerunning} {kept : List Setting} (hkept : kept.Sublist r.members)
    (hmissing : ∀ s ∈ r.members, s.spelling ∈ kept.map Setting.spelling ∨
      s.spelling ∈ (members {}).map Setting.spelling)
    {entries : Entries} (hentries : Holds IsSetting entries (kept.map Setting.meaning)) :
    ofEntries fields {} entries = .ok r :=
  Config.ofEntries_eq isRead_of_mem r.update_members r.ext_members hkept hmissing hentries

end Rerunning

/-! ## Environments -/

/-- The bindings of an environment as settings, with what they mean. -/
def bound (e : Environment) : List Setting := e.bindings.map fun b => ⟨b.1, writtenText b.2, .text b.2⟩

theorem isRead_of_mem_bound (e : Environment) : ∀ s ∈ bound e, s.IsRead := by
  intro s hs
  obtain ⟨b, -, rfl⟩ := List.mem_map.mp hs
  exact reads_writtenText b.2

/-- Binds the name of an entry to its text. -/
def bindStep (e : Environment) (b : String × Span × Value) : Except Misfit Environment :=
  return e.insert b.1 (← text b.2)

/-- A text is bound to the name of its entry. -/
theorem bindStep_text (e : Environment) (name value : String) (span : Span) :
    bindStep e (name, span, .text value) = .ok (e.insert name value) := rfl

/-- Whatever names are bound, the bindings stay in order. -/
theorem isOrdered_of_foldlM {entries : Entries} {e f : Environment} (he : e.IsOrdered)
    (h : entries.foldlM bindStep e = .ok f) : f.IsOrdered := by
  refine foldlM_induction (P := Environment.IsOrdered) (fun e b f he hstep => ?_) he h
  obtain ⟨value, -, hstep⟩ := exists_of_bind_eq_ok hstep
  cases hstep
  exact he.insert b.1 value

/-- **An environment is read back** from a table of all its bindings. -/
theorem environmentOf_eq {e : Environment} (he : e.IsOrdered) {kept : List Setting} (hkept : kept.Sublist (bound e))
    (hall : ∀ s ∈ bound e, s.spelling ∈ kept.map Setting.spelling) (span : Span) {entries : Entries}
    (hentries : Holds IsSetting entries (kept.map Setting.meaning)) :
    environmentOf (span, .table .headed entries) = .ok e := by
  have hagrees : ∃ a, entries.foldlM bindStep .empty = .ok a ∧ ∀ name, a.get? name = e.get? name := by
    refine foldlM_of_agrees ?_ fun name hname => ?_
    · rintro ⟨_, span, _⟩ hentry a
      obtain ⟨_, hmeaning, rfl, rfl⟩ := hentries.sound _ hentry
      obtain ⟨s, hs, rfl⟩ := List.mem_map.mp hmeaning
      obtain ⟨⟨n, value⟩, hb, rfl⟩ := List.mem_map.mp (hkept.subset hs)
      have hvalue : e.get? n = some value := Environment.lookup_of_mem he hb
      refine ⟨_, bindStep_text a n value span, ?_, fun name hname => ?_⟩
      · exact (Environment.get?_insert a n value n).trans ((if_pos rfl).trans hvalue.symm)
      · rw [Environment.get?_insert]
        split
        next heq => exact heq ▸ hvalue.symm
        next => exact hname
    · refine Eq.symm (List.lookup_eq_none_iff.mpr fun b hb => ?_)
      have hmem : (⟨b.1, writtenText b.2, .text b.2⟩ : Setting) ∈ bound e := List.mem_map_of_mem hb
      have hmeaning := (isRead_of_mem_bound e _ hmem).meaning_mem
        (fun s hs => isRead_of_mem_bound e s (hkept.subset hs)) (hall _ hmem)
      obtain ⟨entry, hentry, hsetting⟩ := hentries.complete _ hmeaning
      rw [bne_iff_ne]
      exact fun hname' => hname entry hentry (hsetting.1.trans hname'.symm)
  obtain ⟨a, hfold, ha⟩ := hagrees
  have heq := (isOrdered_of_foldlM Environment.isOrdered_empty hfold).ext he ha
  exact hfold.trans (congrArg Except.ok heq)

/-! ## Every configuration that is read -/

theorem isOrdered_of_environmentOf {v : Span × Value} {e : Environment} (h : environmentOf v = .ok e) :
    e.IsOrdered := by
  rw [environmentOf] at h
  split at h
  · exact isOrdered_of_foldlM Environment.isOrdered_empty h
  · cases h
    exact Environment.isOrdered_empty.insert ..
  · obtain ⟨span, value⟩ := v
    cases value <;> cases h

/-- **The environment of a configuration that is read** is ordered. -/
theorem isOrdered_of_ofTable {entries : Entries} {c : Config} (h : ofTable entries = .ok c) :
    c.environment.IsOrdered := by
  rw [ofTable, ofEntries_eq_foldlM] at h
  refine foldlM_induction (P := fun c : Config => c.environment.IsOrdered) (fun c e c' hc hstep => ?_)
    Environment.isOrdered_empty h
  obtain ⟨f, hf, hupdate⟩ | rfl := entryStep_cases hstep
  · simp only [fields, List.mem_cons, List.not_mem_nil, or_false] at hf
    obtain rfl | rfl | rfl := hf
    · obtain ⟨running, -, h⟩ := exists_of_bind_eq_ok hupdate
      cases h
      exact hc
    · obtain ⟨rerunning, -, h⟩ := exists_of_bind_eq_ok hupdate
      cases h
      exact hc
    · obtain ⟨environment, henvironment, h⟩ := exists_of_bind_eq_ok hupdate
      cases h
      exact isOrdered_of_environmentOf henvironment
  · exact hc

theorem isOrdered_of_ofText {text : String} {c : Config} (h : ofText text = .ok c) : c.environment.IsOrdered := by
  rw [ofText] at h
  split at h
  · rename_i hread
    cases h
    obtain ⟨entries, -, htable⟩ := exists_of_bind_eq_ok hread
    exact isOrdered_of_ofTable htable
  · cases h

end Scratchpad.Config
