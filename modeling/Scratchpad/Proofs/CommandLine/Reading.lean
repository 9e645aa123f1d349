import Scratchpad.Proofs.CommandLine.Reader

/-!
# Command lines that are accepted

A command line gives parameters, each with its value, in an order. An option is given by its name or by its letter,
and its value is attached or is the next argument; whatever is no option is the file, and so is everything behind two
dashes. The reader accepts a command line if and only if it gives parameters so, if there is a file among them, if
nothing but environment variables is given twice, and if nothing is wrong with any value.

## Main definitions

* `IsKnown`: what one argument may be.
* `Gives`: the parameters that arguments give.
* `State.Reads`: the parameters that arguments give from a state on.

## Main statements

* `Reader.isKnown_of_goes`: an argument that is read is known.
* `Reader.exists_takes`: every argument that is read is taken in.
* `Gives.exists_takesAll`: arguments that give parameters in order are read.
* `Arguments.ofList_eq_ok_iff`: the command lines that are accepted, and what they say.
-/

namespace Scratchpad.CommandLine

open Parameter

/-! ## What arguments give -/

/-- A text that cannot be meant as an option: it does not begin with a dash, or there is nothing behind it. -/
def IsPlainText (text : String) : Prop := text = "-" ∨ text.toList.head? ≠ some '-'

theorem IsPlainText.toList_ne {text : String} (h : IsPlainText text) (c : Char) (cs : List Char) :
    text.toList ≠ '-' :: c :: cs := by
  intro htext
  rcases h with rfl | h
  · cases htext
  · rw [htext] at h
    exact h rfl

/-- An argument names an option, whose value is the next one. -/
inductive Opens (p : Parameter) : String → Prop where
  | long {name : String} (h : p.long? = some name) : Opens p ("--" ++ name)
  | short {letter : Char} (h : p.short? = some letter) : Opens p ("-" ++ letter.toString)

/-- An argument names an option, and its value is attached. Behind a letter the equals sign may be missing. -/
inductive Attaches (p : Parameter) (value : String) : String → Prop where
  | long {name : String} (h : p.long? = some name) : Attaches p value ("--" ++ name ++ "=" ++ value)
  | short {letter : Char} (h : p.short? = some letter) : Attaches p value ("-" ++ letter.toString ++ "=" ++ value)
  | joined {letter : Char} (h : p.short? = some letter) (hne : value ≠ "") (hvalue : value.toList.head? ≠ some '=') :
    Attaches p value ("-" ++ letter.toString ++ value)

/-- What one argument may be. -/
inductive IsKnown : String → Prop where
  | dashes : IsKnown "--"
  | text {a : String} (h : IsPlainText a) : IsKnown a
  | flag {p : Parameter} {name : String} (h : p.long? = some name) (hp : p.takesValue = false) : IsKnown ("--" ++ name)
  | opens {p : Parameter} {a : String} (h : Opens p a) (hp : p.takesValue = true) : IsKnown a
  | attached {p : Parameter} {value a : String} (h : Attaches p value a) (hp : p.takesValue = true) : IsKnown a

theorem Opens.ne_file {p : Parameter} {a : String} (h : Opens p a) : p ≠ .file := by
  rintro rfl
  obtain ⟨h⟩ | ⟨h⟩ := h <;> cases h

theorem Attaches.ne_file {p : Parameter} {value a : String} (h : Attaches p value a) : p ≠ .file := by
  rintro rfl
  obtain ⟨h⟩ | ⟨h⟩ | ⟨h⟩ := h <;> cases h

/-- The parameters that arguments give, in order. Behind two dashes every argument is a file. -/
inductive Gives : Bool → List String → List (Parameter × String) → Prop where
  | nil {isPlain : Bool} : Gives isPlain [] []
  | file {isPlain : Bool} {path : String} {as : List String} {given : List (Parameter × String)}
    (h : isPlain = true ∨ IsPlainText path) (rest : Gives isPlain as given) :
    Gives isPlain (path :: as) ((.file, path) :: given)
  | dashes {as : List String} {given : List (Parameter × String)} (rest : Gives true as given) :
    Gives false ("--" :: as) given
  | flag {p : Parameter} {name : String} {as : List String} {given : List (Parameter × String)}
    (h : p.long? = some name) (hp : p.takesValue = false) (hhelp : p ≠ .help) (rest : Gives false as given) :
    Gives false (("--" ++ name) :: as) ((p, "") :: given)
  | attached {p : Parameter} {value a : String} {as : List String} {given : List (Parameter × String)}
    (h : Attaches p value a) (hp : p.takesValue = true) (rest : Gives false as given) :
    Gives false (a :: as) ((p, value) :: given)
  | next {p : Parameter} {value a : String} {as : List String} {given : List (Parameter × String)}
    (h : Opens p a) (hp : p.takesValue = true) (hvalue : IsPlainText value) (rest : Gives false as given) :
    Gives false (a :: value :: as) ((p, value) :: given)

/-! ## Names and letters -/

/-- A text that is cut where it first holds a character. -/
theorem takeWhile_ne_of_cut {c : Char} {before : List Char} (h : c ∉ before) (after : List Char) :
    (before ++ c :: after).takeWhile (· != c) = before ∧ (before ++ c :: after).dropWhile (· != c) = c :: after := by
  have hall : ∀ d ∈ before, (d != c) = true := fun d hd => bne_iff_ne.mpr fun heq => h (heq ▸ hd)
  rw [List.takeWhile_append_of_pos hall, List.dropWhile_append_of_pos hall]
  simp

theorem takeWhile_ne_of_notMem {c : Char} {cs : List Char} (h : c ∉ cs) :
    cs.takeWhile (· != c) = cs ∧ cs.dropWhile (· != c) = [] := by
  have hall : ∀ d ∈ cs, (d != c) = true := fun d hd => bne_iff_ne.mpr fun heq => h (heq ▸ hd)
  rw [← List.append_nil cs, List.takeWhile_append_of_pos hall, List.dropWhile_append_of_pos hall]
  simp

variable {p : Parameter}

theorem long?_of_ofLong? {name : String} (h : ofLong? name = some p) : p.long? = some name := by
  simpa [ofLong?] using List.find?_some h

theorem ofLong?_of_long? {name : String} (h : p.long? = some name) : ofLong? name = some p := by
  cases p <;> cases h <;> decide

theorem short?_of_ofShort? {letter : Char} (h : ofShort? letter = some p) : p.short? = some letter := by
  simpa [ofShort?] using List.find?_some h

theorem ofShort?_of_short? {letter : Char} (h : p.short? = some letter) : ofShort? letter = some p := by
  cases p <;> cases h <;> decide

/-- A name can be told from its value, and from two dashes alone. -/
theorem name_of_long? {name : String} (h : p.long? = some name) : name.toList ≠ [] ∧ '=' ∉ name.toList := by
  cases p <;> cases h <;> decide

theorem ne_dash_of_short? {letter : Char} (h : p.short? = some letter) : letter ≠ '-' := by
  cases p <;> cases h <;> decide

namespace Reader

variable {s s' : State} {p : Parameter} {value : String}

/-! ## One argument -/

theorem goes_argument_of_isPlain (h : s.isPlain = true) {a : String} :
    Goes (argument a) s s' ↔ Goes (file a) s s' := by
  rw [argument, goes_get_bind, if_pos h]

theorem goes_argument_dashes (h : s.isPlain = false) :
    Goes (argument "--") s s' ↔ s' = { s with isPlain := true } := by
  rw [argument, goes_get_bind, if_neg (Bool.eq_false_iff.mp h)]
  exact goes_modify

/-- A text that cannot be meant as an option is the value that an option waits for, or the file. -/
theorem goes_argument_text (h : s.isPlain = false) {a : String} (ha : IsPlainText a) :
    Goes (argument a) s s' ↔
      Goes (match s.waiting with
        | some (p, none) => set { s with waiting := some (p, some a) }
        | _ => file a) s s' := by
  have hdash := ha.toList_ne
  rw [argument, goes_get_bind, if_neg (Bool.eq_false_iff.mp h)]
  split
  · rename_i heq
    exact absurd heq (hdash _ _)
  · rename_i heq
    exact absurd heq (hdash _ _)
  · rename_i heq
    exact absurd heq (hdash _ _)
  · rfl

theorem goes_argument_value (h : s.isPlain = false) {a : String} (ha : IsPlainText a) (hlacks : s.Lacks p) :
    Goes (argument a) s s' ↔ s' = s.fill p a := by
  rw [goes_argument_text h ha, hlacks]
  exact goes_modify

theorem goes_argument_file {a : String} (h : s.isPlain = true ∨ IsPlainText a) (hlacks : ∀ p, ¬ s.Lacks p) :
    Goes (argument a) s s' ↔ Goes (file a) s s' := by
  by_cases hplain : s.isPlain = true
  · exact goes_argument_of_isPlain hplain
  rw [goes_argument_text (Bool.eq_false_iff.mpr hplain) (h.resolve_left hplain)]
  split
  · rename_i heq
    exact absurd heq (hlacks _)
  · rfl

/-- Two dashes and more are the name of an option, up to the first equals sign. -/
theorem goes_argument_name (h : s.isPlain = false) {a : String} {name : List Char}
    (ha : a.toList = '-' :: '-' :: name) (hname : name ≠ []) :
    Goes (argument a) s s' ↔ Goes (long (String.ofList (name.takeWhile (· != '=')))
      (if (name.dropWhile (· != '=')).isEmpty then none
        else some (String.ofList ((name.dropWhile (· != '=')).drop 1)))) s s' := by
  rw [argument, goes_get_bind, if_neg (Bool.eq_false_iff.mp h), ha]
  cases name with
  | nil => exact absurd rfl hname
  | cons c name => rfl

theorem goes_argument_long (h : s.isPlain = false) {a : String} {name : List Char} (ha : a.toList = '-' :: '-' :: name)
    (hname : name ≠ []) (hcut : '=' ∉ name) :
    Goes (argument a) s s' ↔ Goes (long (String.ofList name) none) s s' := by
  obtain ⟨hbefore, hafter⟩ := takeWhile_ne_of_notMem hcut
  rw [goes_argument_name h ha hname, hbefore, hafter]
  rfl

theorem goes_argument_long_attached (h : s.isPlain = false) {a : String} {name value : List Char}
    (ha : a.toList = '-' :: '-' :: (name ++ '=' :: value)) (hcut : '=' ∉ name) :
    Goes (argument a) s s' ↔ Goes (long (String.ofList name) (some (String.ofList value))) s s' := by
  obtain ⟨hbefore, hafter⟩ := takeWhile_ne_of_cut hcut value
  rw [goes_argument_name h ha (by simp), hbefore, hafter]
  rfl

/-- One dash and more are the letters of options. -/
theorem goes_argument_short (h : s.isPlain = false) {a : String} {c : Char} {cs : List Char}
    (ha : a.toList = '-' :: c :: cs) (hc : c ≠ '-') :
    Goes (argument a) s s' ↔ Goes (short (c :: cs)) s s' := by
  rw [argument, goes_get_bind, if_neg (Bool.eq_false_iff.mp h), ha]
  split
  · rename_i heq
    simp [hc] at heq
  · rename_i heq
    simp [hc] at heq
  · rename_i heq
    simp only [List.cons.injEq, true_and] at heq
    rw [heq.1, heq.2]
  · rename_i h1 h2 h3
    exact absurd rfl (h3 c cs)

/-! ## Options -/

theorem goes_long_valued {name : String} (h : p.long? = some name) (hp : p.takesValue = true)
    {attached : Option String} :
    Goes (long name attached) s s' ↔ Goes (valued p attached) s s' := by
  rw [long, ofLong?_of_long? h]
  dsimp only
  rw [if_pos hp]

theorem goes_long_flag {name : String} (h : p.long? = some name) (hp : p.takesValue = false) :
    Goes (long name none) s s' ↔ Goes (flag p) s s' := by
  rw [long, ofLong?_of_long? h]
  dsimp only
  rw [if_neg (Bool.eq_false_iff.mp hp)]

/-- A name that is none, and a value that none takes, are wrong. -/
theorem exists_of_goes_long {name : String} {attached : Option String} (h : Goes (long name attached) s s') :
    ∃ p : Parameter, p.long? = some name ∧ (p.takesValue = true ∨ p.takesValue = false ∧ attached = none) := by
  rw [long] at h
  split at h
  · rename_i p hp
    refine ⟨p, long?_of_ofLong? hp, ?_⟩
    split at h
    · rename_i htakes
      exact .inl htakes
    · rename_i htakes
      refine .inr ⟨Bool.eq_false_iff.mpr htakes, ?_⟩
      split at h
      · rfl
      · rw [goes_givenParameters_bind] at h
        exact absurd h not_goes_bind_throw
  · obtain ⟨t, -, h⟩ := goes_bind.mp h
    rw [goes_givenParameters_bind] at h
    exact absurd h not_goes_throw

theorem goes_short_valued {c : Char} (h : p.short? = some c) (hp : p.takesValue = true) (cs : List Char) :
    Goes (short (c :: cs)) s s' ↔ Goes (valued p (match cs with
      | [] => none
      | '=' :: value => some (String.ofList value)
      | value => some (String.ofList value))) s s' := by
  have hshort : short (c :: cs) = valued p (match cs with
      | [] => none
      | '=' :: value => some (String.ofList value)
      | value => some (String.ofList value)) := by
    unfold short
    rw [ofShort?_of_short? h]
    exact if_pos hp
  rw [hshort]

/-- A letter that is none is wrong, and whoever asks for help is not answered by reading on. -/
theorem exists_of_goes_short {c : Char} {cs : List Char} (hs : IsInOrder s.given) (h : Goes (short (c :: cs)) s s') :
    ∃ p : Parameter, p.short? = some c ∧ p.takesValue = true := by
  unfold short at h
  split at h
  · rename_i p hp
    have hletter := short?_of_ofShort? hp
    refine ⟨p, hletter, ?_⟩
    split at h
    · assumption
    · rename_i htakes
      obtain rfl : p = .help := by
        cases p <;> first | rfl | exact absurd rfl htakes | cases hletter
      obtain ⟨t, h, -⟩ := goes_bind.mp h
      exact absurd rfl ((goes_flag hs).mp h).1
  · exact absurd h not_goes_bind_throw

theorem toList_dashes (name : String) : ("--" ++ name).toList = '-' :: '-' :: name.toList := by simp

theorem goes_argument_flag {name : String} (h : p.long? = some name) (hp : p.takesValue = false)
    (hplain : s.isPlain = false) : Goes (argument ("--" ++ name)) s s' ↔ Goes (flag p) s s' := by
  obtain ⟨hne, hcut⟩ := name_of_long? h
  rw [goes_argument_long hplain (toList_dashes name) hne hcut, String.ofList_toList, goes_long_flag h hp]

/-- An option that is opened waits for its value. -/
theorem goes_argument_opens {a : String} (h : Opens p a) (hp : p.takesValue = true) (hplain : s.isPlain = false) :
    Goes (argument a) s s' ↔ Goes (valued p none) s s' := by
  cases h with
  | @long name h =>
    obtain ⟨hne, hcut⟩ := name_of_long? h
    rw [goes_argument_long hplain (toList_dashes name) hne hcut, String.ofList_toList, goes_long_valued h hp]
  | @short letter h =>
    have ha : ("-" ++ letter.toString).toList = '-' :: letter :: [] := by simp
    rw [goes_argument_short hplain ha (ne_dash_of_short? h), goes_short_valued h hp]

/-- An option takes the value that is attached. -/
theorem goes_argument_attaches {a : String} (h : Attaches p value a) (hp : p.takesValue = true)
    (hplain : s.isPlain = false) : Goes (argument a) s s' ↔ Goes (valued p (some value)) s s' := by
  cases h with
  | @long name h =>
    obtain ⟨-, hcut⟩ := name_of_long? h
    have ha : ("--" ++ name ++ "=" ++ value).toList = '-' :: '-' :: (name.toList ++ '=' :: value.toList) := by simp
    rw [goes_argument_long_attached hplain ha hcut, String.ofList_toList, String.ofList_toList, goes_long_valued h hp]
  | @short letter h =>
    have ha : ("-" ++ letter.toString ++ "=" ++ value).toList = '-' :: letter :: '=' :: value.toList := by simp
    rw [goes_argument_short hplain ha (ne_dash_of_short? h), goes_short_valued h hp]
    simp
  | @joined letter h hne hvalue =>
    have ha : ("-" ++ letter.toString ++ value).toList = '-' :: letter :: value.toList := by simp
    rw [goes_argument_short hplain ha (ne_dash_of_short? h), goes_short_valued h hp]
    split
    · rename_i heq
      exact absurd (String.toList_injective heq) hne
    · rename_i heq
      simp [heq] at hvalue
    · rw [String.ofList_toList]

/-- An argument with two dashes and more names an option, up to its end or the first equals sign. -/
theorem isKnown_of_goes_name (hplain : s.isPlain = false) {a : String} {cs : List Char}
    (ha : a.toList = '-' :: '-' :: cs) (h : Goes (argument a) s s') : IsKnown a := by
  by_cases hcut : '=' ∈ cs
  · obtain ⟨name, value, rfl, hname⟩ := List.eq_append_cons_of_mem hcut
    obtain rfl : a = "--" ++ String.ofList name ++ "=" ++ String.ofList value := String.toList_injective (by simp [ha])
    rw [goes_argument_long_attached hplain ha hname] at h
    obtain ⟨p, hp, htakes | ⟨-, hnone⟩⟩ := exists_of_goes_long h
    · exact .attached (.long hp) htakes
    · cases hnone
  · obtain rfl : a = "--" ++ String.ofList cs := String.toList_injective (by simp [ha])
    by_cases hnil : cs = []
    · subst hnil
      exact .dashes
    · rw [goes_argument_long hplain ha hnil hcut] at h
      obtain ⟨p, hp, htakes | ⟨hflag, -⟩⟩ := exists_of_goes_long h
      · exact .opens (.long hp) htakes
      · exact .flag hp hflag

/-- An argument with one dash and more gives an option by its letter. -/
theorem isKnown_of_goes_letter (hs : IsInOrder s.given) (hplain : s.isPlain = false) {a : String} {c : Char}
    {cs : List Char} (ha : a.toList = '-' :: c :: cs) (hc : c ≠ '-') (h : Goes (argument a) s s') : IsKnown a := by
  rw [goes_argument_short hplain ha hc] at h
  obtain ⟨p, hletter, hp⟩ := exists_of_goes_short hs h
  rcases cs with _ | ⟨d, cs⟩
  · obtain rfl : a = "-" ++ c.toString := String.toList_injective (by simp [ha])
    exact .opens (.short hletter) hp
  by_cases hd : d = '='
  · subst hd
    obtain rfl : a = "-" ++ c.toString ++ "=" ++ String.ofList cs := String.toList_injective (by simp [ha])
    exact .attached (.short hletter) hp
  · obtain rfl : a = "-" ++ c.toString ++ String.ofList (d :: cs) := String.toList_injective (by simp [ha])
    exact .attached (.joined hletter (by simp) (by simpa using hd)) hp

/-- **An argument that is read is known.** -/
theorem isKnown_of_goes (hs : IsInOrder s.given) (hplain : s.isPlain = false) {a : String}
    (h : Goes (argument a) s s') : IsKnown a := by
  rcases ha : a.toList with _ | ⟨c, cs⟩
  · exact .text (.inr (by simp [ha]))
  by_cases hc : c = '-'
  · subst hc
    rcases cs with _ | ⟨d, cs⟩
    · exact .text (.inl (String.toList_injective ha))
    by_cases hd : d = '-'
    · subst hd
      exact isKnown_of_goes_name hplain ha h
    · exact isKnown_of_goes_letter hs hplain ha hd h
  · exact .text (.inr (by simp [ha, hc]))

end Reader

/-! ## All arguments -/

/-- What arguments give from a state on: the first one may be the value that an option waits for. -/
inductive State.Reads (s : State) : List String → List (Parameter × String) → Prop where
  | start {as : List String} {given : List (Parameter × String)} (h : ∀ p, ¬ s.Lacks p)
    (rest : Gives s.isPlain as given) : s.Reads as given
  | value {p : Parameter} {value : String} {as : List String} {given : List (Parameter × String)} (h : s.Lacks p)
    (hplain : s.isPlain = false) (hvalue : IsPlainText value) (rest : Gives false as given) :
    s.Reads (value :: as) ((p, value) :: given)

namespace State.Reads

variable {s : State} {p : Parameter} {as : List String} {given : List (Parameter × String)}

theorem of_not_lacks (h : s.Reads as given) (hlacks : ∀ p, ¬ s.Lacks p) : Gives s.isPlain as given := by
  cases h with
  | start _ rest => exact rest
  | value h => exact absurd h (hlacks _)

theorem of_lacks (h : s.Reads as given) (hlacks : s.Lacks p) : s.isPlain = false ∧ ∃ value as' given',
    as = value :: as' ∧ given = (p, value) :: given' ∧ IsPlainText value ∧ Gives false as' given' := by
  cases h with
  | start h => exact absurd hlacks (h p)
  | value h hplain hvalue rest =>
    rw [State.Lacks, hlacks] at h
    cases h
    exact ⟨hplain, _, _, _, rfl, rfl, hvalue, rest⟩

end State.Reads

namespace Reader

variable {s s' t : State} {p : Parameter} {a value : String}

/-- An argument takes a sound state to a sound one, and gives the parameters by which more has been taken in. -/
structure Takes (s : State) (a : String) (t : State) (more : List (Parameter × String)) : Prop where
  isSound : t.IsSound
  taken : t.taken = s.taken ++ more
  reads : ∀ as given, t.Reads as given → s.Reads (a :: as) (more ++ given)

theorem takes_add (hs : s.IsSound) (hlacks : ∀ p, ¬ s.Lacks p) (hadded : IsInOrder (s.taken ++ [(p, value)]))
    (hp : p ≠ .file) (h : ∀ as given, Gives s.isPlain as given → Gives s.isPlain (a :: as) ((p, value) :: given)) :
    Takes s a (s.add p value) [(p, value)] :=
  ⟨hs.add hadded hp, State.taken_add, fun as given hrest =>
    .start hlacks (h as given (hrest.of_not_lacks (State.not_lacks_of_waiting_eq_none rfl)))⟩

theorem takes_file (hs : s.IsSound) (ha : s.isPlain = true ∨ IsPlainText a) (h : Goes (file a) s t) :
    Takes s a t [(.file, a)] := by
  obtain ⟨-, hlacks, htaken, rfl⟩ := (goes_file hs.given).mp h
  have hnot : ∀ p, ¬ (s.addFile a).Lacks p := nofun
  refine ⟨⟨htaken, ?_, hnot _⟩, rfl, fun as given hrest => .start hlacks (.file ha (hrest.of_not_lacks hnot))⟩
  simp [State.taken, State.addFile]

theorem takes_value (hs : s.IsSound) (hplain : s.isPlain = false) (ha : IsPlainText a) (hlacks : s.Lacks p) :
    Takes s a (s.fill p a) [(p, a)] := by
  have hp : p ≠ .file := fun heq => hs.not_lacks (heq ▸ hlacks)
  have htaken : (s.fill p a).taken = s.taken ++ [(p, a)] := by
    rw [State.taken_of_lacks hlacks]
    rfl
  have hnot : ∀ q, ¬ (s.fill p a).Lacks q := nofun
  refine ⟨⟨hs.given, ?_, hnot _⟩, htaken, fun as given hrest => ?_⟩
  · have hhasFile : (s.fill p a).hasFile = s.hasFile := rfl
    rw [hhasFile, hs.hasFile, htaken, List.map_append, List.mem_append]
    simp [hp.symm]
  · have hfill : (s.fill p a).isPlain = false := hplain
    exact .value hlacks hplain ha (hfill ▸ hrest.of_not_lacks hnot)

theorem takes_dashes (hs : s.IsSound) (hplain : s.isPlain = false) : Takes s "--" { s with isPlain := true } [] := by
  refine ⟨⟨hs.given, hs.hasFile, hs.not_lacks⟩, (List.append_nil _).symm, fun as given hrest => ?_⟩
  cases hrest with
  | start h rest => exact .start h (hplain ▸ .dashes rest)
  | value _ h => cases h

theorem takes_opens (hs : s.IsSound) (hplain : s.isPlain = false) (h : Opens p a) (hp : p.takesValue = true)
    (hlacks : ∀ p, ¬ s.Lacks p) (htaken : IsInOrder s.taken) : Takes s a (s.passOn (some (p, none))) [] := by
  have hkeeps : (s.passOn (some (p, none))).taken = s.taken := State.taken_of_lacks rfl
  refine ⟨⟨htaken, ?_, fun hlacks => h.ne_file (by cases hlacks; rfl)⟩, by rw [hkeeps, List.append_nil],
    fun as given hrest => ?_⟩
  · rw [hkeeps]
    exact hs.hasFile
  · obtain ⟨-, value, as', given', rfl, rfl, hvalue, hrest⟩ := hrest.of_lacks rfl
    exact .start hlacks (hplain ▸ .next h hp hvalue hrest)

/-- **Every argument that is read is taken in.** -/
theorem exists_takes (hs : s.IsSound) (h : Goes (argument a) s t) : ∃ more, Takes s a t more := by
  by_cases hplain : s.isPlain = true
  · exact ⟨_, takes_file hs (.inl hplain) ((goes_argument_of_isPlain hplain).mp h)⟩
  rw [Bool.not_eq_true] at hplain
  cases isKnown_of_goes hs.given hplain h with
  | dashes =>
    rw [goes_argument_dashes hplain] at h
    subst h
    exact ⟨_, takes_dashes hs hplain⟩
  | text ha =>
    by_cases hlacks : ∃ p, s.Lacks p
    · obtain ⟨p, hlacks⟩ := hlacks
      rw [goes_argument_value hplain ha hlacks] at h
      subst h
      exact ⟨_, takes_value hs hplain ha hlacks⟩
    · exact ⟨_, takes_file hs (.inr ha) ((goes_argument_file (.inr ha) (not_exists.mp hlacks)).mp h)⟩
  | @flag p name hname hp =>
    rw [goes_argument_flag hname hp hplain, goes_flag hs.given] at h
    obtain ⟨hhelp, hlacks, hadded, rfl⟩ := h
    have hfile : p ≠ .file := by
      rintro rfl
      cases hname
    refine ⟨_, takes_add hs hlacks hadded hfile fun as given hrest => ?_⟩
    rw [hplain] at hrest ⊢
    exact .flag hname hp hhelp hrest
  | opens ha hp =>
    rw [goes_argument_opens ha hp hplain, goes_valued_none hs.given] at h
    obtain ⟨hlacks, htaken, rfl⟩ := h
    exact ⟨_, takes_opens hs hplain ha hp hlacks htaken⟩
  | attached ha hp =>
    rw [goes_argument_attaches ha hp hplain, goes_valued_some hs.given] at h
    obtain ⟨hlacks, hadded, rfl⟩ := h
    refine ⟨_, takes_add hs hlacks hadded ha.ne_file fun as given hrest => ?_⟩
    rw [hplain] at hrest ⊢
    exact .attached ha hp hrest

theorem goes_forM_cons {as : List String} : Goes ((a :: as).forM argument) s s' ↔
    ∃ t, Goes (argument a) s t ∧ Goes (as.forM argument) t s' := goes_bind

theorem isSound_of_goes_forM {as : List String} (hs : s.IsSound) (h : Goes (as.forM argument) s s') : s'.IsSound := by
  induction as generalizing s with
  | nil => exact goes_pure.mp h ▸ hs
  | cons a as ih =>
    obtain ⟨t, h, hrest⟩ := goes_forM_cons.mp h
    obtain ⟨more, ht, -⟩ := exists_takes hs h
    exact ih ht hrest

/-- Arguments are read, and they give some parameters. -/
structure TakesAll (s : State) (as : List String) (s' : State) (given : List (Parameter × String)) : Prop where
  goes : Goes (as.forM argument) s s'
  not_lacks : ∀ p, ¬ s'.Lacks p
  taken : s'.taken = s.taken ++ given
  isSound : s'.IsSound

/-- One argument is read, and then all others. -/
theorem TakesAll.cons {as : List String} {more given : List (Parameter × String)} (h : Goes (argument a) s t)
    (htaken : t.taken = s.taken ++ more) (hrest : TakesAll t as s' given) : TakesAll s (a :: as) s' (more ++ given) :=
  ⟨goes_forM_cons.mpr ⟨t, h, hrest.goes⟩, hrest.not_lacks, by rw [hrest.taken, htaken, List.append_assoc],
    hrest.isSound⟩

/-- Arguments that are read give what has been taken in. -/
theorem exists_reads {as : List String} (hs : s.IsSound) (h : Goes (as.forM argument) s s')
    (hlacks : ∀ p, ¬ s'.Lacks p) : ∃ given, s.Reads as given ∧ TakesAll s as s' given := by
  induction as generalizing s with
  | nil =>
    obtain rfl := goes_pure.mp h
    exact ⟨[], .start hlacks .nil, h, hlacks, (List.append_nil _).symm, hs⟩
  | cons a as ih =>
    obtain ⟨t, h, hrest⟩ := goes_forM_cons.mp h
    obtain ⟨more, ht, htaken, hreads⟩ := exists_takes hs h
    obtain ⟨given, hgiven, hall⟩ := ih ht hrest
    exact ⟨more ++ given, hreads as given hgiven, .cons h htaken hall⟩

end Reader

open Reader

/-- Arguments that give parameters in order are read, if nothing waits for a value. -/
theorem Gives.exists_takesAll {isPlain : Bool} {as : List String} {given : List (Parameter × String)}
    (h : Gives isPlain as given) {s : State} (hplain : s.isPlain = isPlain) (hs : s.IsSound)
    (hlacks : ∀ p, ¬ s.Lacks p) (hgiven : IsInOrder (s.taken ++ given)) : ∃ s', TakesAll s as s' given := by
  induction h generalizing s with
  | nil => exact ⟨s, goes_pure.mpr rfl, hlacks, (List.append_nil _).symm, hs⟩
  | @file isPlain path as given h rest ih =>
    have hfile := hs.hasFile_eq_false hgiven
    have htaken := (isInOrder_append.mp hgiven).1
    rw [List.append_cons] at hgiven
    have ha := h.imp_left hplain.trans
    have hgoes : Goes (Reader.file path) s (s.addFile path) := (goes_file hs.given).mpr ⟨hfile, hlacks, htaken, rfl⟩
    obtain ⟨ht, hmore, -⟩ := takes_file hs ha hgoes
    obtain ⟨s', hs'⟩ := ih (s := s.addFile path) hplain ht (fun _ => nofun) (hmore ▸ hgiven)
    exact ⟨s', .cons ((goes_argument_file ha hlacks).mpr hgoes) hmore hs'⟩
  | @dashes as given rest ih =>
    obtain ⟨ht, hmore, -⟩ := takes_dashes hs hplain
    obtain ⟨s', hs'⟩ := ih (s := { s with isPlain := true }) rfl ht hlacks hgiven
    exact ⟨s', .cons ((goes_argument_dashes hplain).mpr rfl) hmore hs'⟩
  | @flag p name as given h hp hhelp rest ih =>
    rw [List.append_cons] at hgiven
    have hadded := (isInOrder_append.mp hgiven).1
    have hfile : p ≠ .file := by
      rintro rfl
      cases h
    have hgoes : Goes (argument ("--" ++ name)) s (s.add p "") :=
      (goes_argument_flag h hp hplain).mpr ((goes_flag hs.given).mpr ⟨hhelp, hlacks, hadded, rfl⟩)
    obtain ⟨s', hs'⟩ := ih (s := s.add p "") hplain (hs.add hadded hfile) (fun _ => nofun)
      (State.taken_add (s := s) ▸ hgiven)
    exact ⟨s', .cons hgoes State.taken_add hs'⟩
  | @attached p value a as given h hp rest ih =>
    rw [List.append_cons] at hgiven
    have hadded := (isInOrder_append.mp hgiven).1
    have hgoes : Goes (argument a) s (s.add p value) :=
      (goes_argument_attaches h hp hplain).mpr ((goes_valued_some hs.given).mpr ⟨hlacks, hadded, rfl⟩)
    obtain ⟨s', hs'⟩ := ih (s := s.add p value) hplain (hs.add hadded h.ne_file) (fun _ => nofun)
      (State.taken_add (s := s) ▸ hgiven)
    exact ⟨s', .cons hgoes State.taken_add hs'⟩
  | @next p value a as given h hp hvalue rest ih =>
    have htaken := (isInOrder_append.mp hgiven).1
    rw [List.append_cons] at hgiven
    have hopened : Goes (argument a) s (s.passOn (some (p, none))) :=
      (goes_argument_opens h hp hplain).mpr ((goes_valued_none hs.given).mpr ⟨hlacks, htaken, rfl⟩)
    obtain ⟨ht, hmore, -⟩ := takes_opens hs hplain h hp hlacks htaken
    obtain ⟨ht', hmore', -⟩ := takes_value ht hplain hvalue rfl
    have hfilled : Goes (argument value) (s.passOn (some (p, none))) ((s.passOn (some (p, none))).fill p value) :=
      (goes_argument_value (s := s.passOn (some (p, none))) hplain hvalue rfl).mpr rfl
    obtain ⟨s', hs'⟩ := ih (s := (s.passOn (some (p, none))).fill p value) hplain ht' (fun _ => nofun)
      (by rw [hmore', hmore, List.append_nil]; exact hgiven)
    exact ⟨s', .cons hopened hmore (.cons hfilled hmore' hs')⟩

/-- The state in which nothing has been read. -/
def State.start : State := ⟨[], none, false, false⟩

theorem State.isSound_start : State.start.IsSound where
  given := isInOrder_nil
  hasFile := by simp [State.taken, State.start]
  not_lacks := nofun

/-- A whole command line is read if it gives parameters in order, with a file among them. -/
theorem exists_goes_arguments {as : List String} {given : List (Parameter × String)} :
    (∃ s, Goes (arguments as) .start s ∧ s.given = given) ↔
      Gives false as given ∧ IsInOrder given ∧ .file ∈ given.map (·.1) := by
  constructor
  · rintro ⟨s, h, rfl⟩
    obtain ⟨t, hall, h⟩ := goes_bind.mp h
    obtain ⟨u, hsettle, h⟩ := goes_bind.mp h
    rw [goes_givenParameters_bind] at h
    split at h
    · exact absurd h not_goes_throw
    rename_i hfile
    obtain rfl := goes_pure.mp h
    have ht := isSound_of_goes_forM State.isSound_start hall
    obtain ⟨hlacks, hgiven, rfl⟩ := (goes_settle ht.given).mp hsettle
    obtain ⟨given, hreads, htaken⟩ := exists_reads State.isSound_start hall hlacks
    have hgives := hreads.of_not_lacks fun _ => nofun
    have hgiven' : (t.passOn none).given = given := htaken.taken
    exact ⟨hgiven' ▸ hgives, hgiven, not_not.mp hfile⟩
  · rintro ⟨hgives, hgiven, hfile⟩
    obtain ⟨t, ht⟩ := hgives.exists_takesAll rfl State.isSound_start (fun _ => nofun) hgiven
    have htaken : t.taken = given := ht.taken
    refine ⟨t.passOn none, goes_bind.mpr ⟨t, ht.goes, (goes_settle_bind ht.isSound.given).mpr
      ⟨ht.not_lacks, htaken ▸ hgiven, ?_⟩⟩, htaken⟩
    rw [goes_givenParameters_bind, if_neg]
    · exact goes_pure.mpr rfl
    · have hkeeps : (t.passOn none).given = given := htaken
      rw [hkeeps]
      exact not_not.mpr hfile

/-- **The command lines that are accepted, and what they say.** -/
theorem Arguments.ofList_eq_ok_iff {as : List String} {a : Arguments} : Arguments.ofList as = .ok a ↔
    ∃ given, Gives false as given ∧ IsInOrder given ∧ .file ∈ given.map (·.1) ∧ a = .ofGiven given := by
  have hok : Arguments.ofList as = .ok a ↔
      ∃ s, Goes (arguments as) .start s ∧ a = .ofGiven s.given := by
    unfold Arguments.ofList Goes State.start
    split
    · rename_i s hs
      rw [hs]
      constructor
      · rintro ⟨⟩
        exact ⟨s, rfl, rfl⟩
      · rintro ⟨s', ⟨⟩, rfl⟩
        rfl
    · rename_i hs
      rw [hs]
      constructor
      · rintro ⟨⟩
      · rintro ⟨s', ⟨⟩, -⟩
  rw [hok]
  constructor
  · rintro ⟨s, hs, rfl⟩
    obtain ⟨hgives, hgiven, hfile⟩ := exists_goes_arguments.mp ⟨s, hs, rfl⟩
    exact ⟨s.given, hgives, hgiven, hfile, rfl⟩
  · rintro ⟨given, hgives, hgiven, hfile, rfl⟩
    obtain ⟨s, hs, rfl⟩ := exists_goes_arguments.mpr ⟨hgives, hgiven, hfile⟩
    exact ⟨s, hs, rfl⟩

end Scratchpad.CommandLine
