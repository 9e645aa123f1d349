import Scratchpad.CommandLine.Plan
import Scratchpad.Proofs.CommandLine.Reading
import Scratchpad.Proofs.Environment

/-!
# Environments of plans

The environment of a plan binds the names that the configuration binds and those that the command line assigns values
to. The last assignment of a name counts, and a name that is assigned nothing keeps the value that the configuration
gives it.

## Main definitions

* `Assigns`: a text assigns a value to a name.
* `AssignsLast`: the last one of some texts that assigns a value to a name.
* `Overrides`: an environment after texts have assigned values to names.
* `environmentTexts`: the texts that a command line gives as environment variables.

## Main statements

* `binding?_eq_some_iff`: the binding that is read from a text is what the text assigns.
* `exists_gives_of_accepted`: every list of texts that are accepted can be given on a command line.
* `Arguments.overrides_plan`: the environment of a plan.
-/

namespace Scratchpad.CommandLine

/-! ## What a text assigns -/

/-- A text assigns a value to a name: the name comes first, then the first equals sign, then the value. There has to be
a name. -/
def Assigns (text name value : String) : Prop := name ≠ "" ∧ '=' ∉ name.toList ∧ text = name ++ "=" ++ value

variable {text name value : String} {texts : List String} {given : List (Parameter × String)}

theorem binding?_of_cut {before after : List Char} (hne : before ≠ []) (hcut : '=' ∉ before)
    (htext : text.toList = before ++ '=' :: after) :
    binding? text = some (String.ofList before, String.ofList after) := by
  have hbefore := (takeWhile_ne_of_cut hcut after).1
  rw [binding?, htext, hbefore]
  simp [hne]

theorem binding?_of_notMem (h : '=' ∉ text.toList) : binding? text = none := by
  rw [binding?, (takeWhile_ne_of_notMem h).1]
  simp

/-- **The binding that is read from a text is what the text assigns.** -/
theorem binding?_eq_some_iff : binding? text = some (name, value) ↔ Assigns text name value := by
  constructor
  · intro h
    by_cases hmem : '=' ∈ text.toList
    · obtain ⟨before, after, htext, hcut⟩ := List.eq_append_cons_of_mem hmem
      by_cases hne : before = []
      · subst hne
        rw [binding?, htext] at h
        simp at h
      · rw [binding?_of_cut hne hcut htext] at h
        cases h
        refine ⟨by simpa using hne, by simpa using hcut, String.toList_injective ?_⟩
        simp [htext]
    · rw [binding?_of_notMem hmem] at h
      cases h
  · rintro ⟨hne, hcut, rfl⟩
    have htext : (name ++ "=" ++ value).toList = name.toList ++ '=' :: value.toList := by simp
    rw [binding?_of_cut (by simpa using hne) hcut htext, String.ofList_toList, String.ofList_toList]

theorem isSome_binding?_iff : (binding? text).isSome = true ↔ ∃ name value, Assigns text name value := by
  simp only [Option.isSome_iff_exists, Prod.exists, binding?_eq_some_iff]

/-! ## Overriding an environment -/

/-- The last one of some texts that assigns something to a name assigns a value to it. -/
def AssignsLast (texts : List String) (name value : String) : Prop :=
  ∃ before text after, texts = before ++ text :: after ∧ Assigns text name value ∧
    ∀ later ∈ after, ∀ other, ¬ Assigns later name other

/-- An environment after texts have assigned values to names. -/
structure Overrides (before : Environment) (texts : List String) (after : Environment) : Prop where
  /-- No name is bound twice. -/
  isOrdered : after.IsOrdered
  /-- The names of the environment and those of the texts are bound, and no others. -/
  mem_names_iff (name : String) : name ∈ after.bindings.map (·.1) ↔
    name ∈ before.bindings.map (·.1) ∨ ∃ text ∈ texts, ∃ value, Assigns text name value
  /-- The last text counts, and where there is none, the environment. -/
  mem_bindings_iff (name value : String) : (name, value) ∈ after.bindings ↔
    AssignsLast texts name value ∨
      (∀ text ∈ texts, ∀ other, ¬ Assigns text name other) ∧ (name, value) ∈ before.bindings

theorem forall_mem_filterMap_binding?_ne : (∀ b ∈ texts.filterMap binding?, b.1 ≠ name) ↔
    ∀ text ∈ texts, ∀ other, ¬ Assigns text name other := by
  simp only [List.mem_filterMap, Prod.forall, forall_exists_index, and_imp, ← binding?_eq_some_iff]
  constructor
  · intro h text htext other hbinding
    exact h name other text htext hbinding rfl
  · rintro h _ other text htext hbinding rfl
    exact h text htext other hbinding

/-- The last text that assigns something to a name is the one whose binding comes last. -/
theorem assignsLast_iff : AssignsLast texts name value ↔ ∃ before after,
    texts.filterMap binding? = before ++ (name, value) :: after ∧ ∀ b ∈ after, b.1 ≠ name := by
  constructor
  · rintro ⟨before, text, after, rfl, htext, hafter⟩
    refine ⟨before.filterMap binding?, after.filterMap binding?, ?_, forall_mem_filterMap_binding?_ne.mpr hafter⟩
    rw [List.filterMap_append, List.filterMap_cons_some (binding?_eq_some_iff.mpr htext)]
  · rintro ⟨bs, cs, htexts, hcs⟩
    obtain ⟨before, rest, rfl, -, hrest⟩ := List.filterMap_eq_append_iff.mp htexts
    obtain ⟨passed, text, after, rfl, -, htext, rfl⟩ := List.filterMap_eq_cons_iff.mp hrest
    exact ⟨before ++ passed, text, after, by rw [List.append_assoc], binding?_eq_some_iff.mp htext,
      forall_mem_filterMap_binding?_ne.mp hcs⟩

/-- A name is assigned something last, or nothing at all. -/
theorem exists_assignsLast_or (texts : List String) (name : String) :
    (∃ value, AssignsLast texts name value) ∨ ∀ text ∈ texts, ∀ other, ¬ Assigns text name other := by
  cases h : (texts.filterMap binding?).reverse.lookup name with
  | none => exact .inr (forall_mem_filterMap_binding?_ne.mp (Environment.lookup_reverse_eq_none_iff.mp h))
  | some value => exact .inl ⟨value, assignsLast_iff.mpr (Environment.lookup_reverse_eq_some_iff.mp h)⟩

theorem AssignsLast.exists_mem (h : AssignsLast texts name value) :
    ∃ text ∈ texts, ∃ value, Assigns text name value := by
  obtain ⟨before, text, after, rfl, htext, -⟩ := h
  exact ⟨text, by simp, value, htext⟩

/-- **What texts assign overrides an environment.** -/
theorem overrides_extend {e : Environment} (h : e.IsOrdered) (texts : List String) :
    Overrides e texts (e.extend (texts.filterMap binding?)) := by
  have hmem (name value : String) : (name, value) ∈ (e.extend (texts.filterMap binding?)).bindings ↔
      AssignsLast texts name value ∨
        (∀ text ∈ texts, ∀ other, ¬ Assigns text name other) ∧ (name, value) ∈ e.bindings := by
    rw [h.mem_extend_iff, assignsLast_iff, forall_mem_filterMap_binding?_ne]
  refine ⟨h.extend _, fun name => ?_, hmem⟩
  simp only [List.mem_map, Prod.exists, exists_eq_right, exists_and_right, hmem]
  constructor
  · rintro ⟨value, hlast | ⟨-, hbound⟩⟩
    · exact .inr hlast.exists_mem
    · exact .inl ⟨value, hbound⟩
  · intro hname
    obtain ⟨value, hlast⟩ | hnone := exists_assignsLast_or texts name
    · exact ⟨value, .inl hlast⟩
    · obtain ⟨value, hbound⟩ | ⟨text, htext, value, hassigns⟩ := hname
      · exact ⟨value, .inr ⟨hnone, hbound⟩⟩
      · exact absurd hassigns (hnone text htext value)

/-! ## Plans -/

/-- The texts that a command line gives as environment variables. -/
def environmentTexts (given : List (Parameter × String)) : List String := (given.filter (·.1 = .environment)).map (·.2)

theorem environment_ofGiven (given : List (Parameter × String)) :
    (Arguments.ofGiven given).environment = (environmentTexts given).filterMap binding? := by
  rw [environmentTexts, List.filterMap_map, List.filterMap_filter]
  exact List.filterMap_congr fun x _ => by simp

/-- Every text that is accepted as an environment variable assigns something. -/
theorem IsInOrder.exists_assigns (h : IsInOrder given) (htext : text ∈ environmentTexts given) :
    ∃ name value, Assigns text name value := by
  obtain ⟨⟨p, value⟩, hx, rfl⟩ := List.mem_map.mp htext
  obtain ⟨hmem, hp⟩ := List.mem_filter.mp hx
  obtain rfl : p = .environment := by simpa using hp
  have hfine := h.fine _ hmem
  rw [← isSome_binding?_iff]
  by_contra hnot
  simp [Reader.valueFlaw?, hnot] at hfine

/-- Every list of texts that are accepted can be given on a command line, whatever names they assign values to. -/
theorem exists_gives_of_accepted (h : ∀ text ∈ texts, (binding? text).isSome = true) : ∃ argv given,
    Gives false argv given ∧ IsInOrder given ∧ .file ∈ given.map (·.1) ∧ environmentTexts given = texts := by
  have hgives : Gives false (texts.map fun text => "--" ++ "env" ++ "=" ++ text) (texts.map (.environment, ·)) := by
    clear h
    induction texts with
    | nil => exact .nil
    | cons text texts ih => exact .attached (.long rfl) rfl ih
  have hfine : ∀ x ∈ texts.map (Parameter.environment, ·), x.1 = .environment ∧ Reader.valueFlaw? x.1 x.2 = none := by
    intro x hx
    obtain ⟨text, htext, rfl⟩ := List.mem_map.mp hx
    exact ⟨rfl, if_pos (h text htext)⟩
  refine ⟨"main.ts" :: _, (.file, "main.ts") :: _, .file (.inr (.inr (by decide))) hgives, ⟨?_, ?_⟩,
    List.mem_cons_self, ?_⟩
  · have hpairs : (texts.map (Parameter.environment, ·)).Pairwise fun x y => y.1 = .environment ∨ x.1 ≠ y.1 :=
      List.pairwise_of_forall_mem_list fun _ _ y hy => .inl (hfine y hy).1
    exact List.pairwise_cons.mpr ⟨fun y hy => .inl (hfine y hy).1, hpairs⟩
  · exact List.forall_mem_cons.mpr ⟨by decide, fun x hx => (hfine x hx).2⟩
  · simp [environmentTexts, List.filter_map, Function.comp_def]

/-- **The environment of a plan** is that of the configuration, overridden by what the command line assigns. -/
theorem Arguments.overrides_plan {config : Config} (h : config.environment.IsOrdered)
    (given : List (Parameter × String)) :
    Overrides config.environment (environmentTexts given) ((Arguments.ofGiven given).plan config).environment := by
  rw [Arguments.plan, environment_ofGiven]
  exact overrides_extend h _

end Scratchpad.CommandLine
