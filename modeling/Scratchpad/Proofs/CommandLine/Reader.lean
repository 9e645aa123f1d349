import Mathlib.Data.List.Basic
import Scratchpad.CommandLine.Reading

/-!
# What readers of command lines do

Every reader takes in what waits before it does anything else. It comes to another state with nothing wrong exactly if
what is taken in is in order with what has been taken in before, and it says then how the state has changed.

## Main definitions

* `IsInOrder`: parameters that are accepted together.
* `State.taken`, `State.Lacks`: what has been taken in or is about to be, and the option that lacks its value.
* `State.IsSound`: what is true of every state on the way.
* `Reader.Goes`: a reader comes to another state, with nothing wrong.

## Main statements

* `Reader.goes_settle_bind`: what waits is taken in first.
* `Reader.goes_flag`, `Reader.goes_valued_some`, `Reader.goes_valued_none`, `Reader.goes_file`: options and the file.
-/

namespace Scratchpad.CommandLine

/-! ## Parameters that are accepted together -/

/-- Parameters that are accepted together: nothing but environment variables is given twice, and nothing is wrong with
any value. -/
structure IsInOrder (given : List (Parameter × String)) : Prop where
  once : given.Pairwise fun x y => y.1 = .environment ∨ x.1 ≠ y.1
  fine : ∀ x ∈ given, Reader.valueFlaw? x.1 x.2 = none

theorem isInOrder_nil : IsInOrder [] := ⟨List.Pairwise.nil, by simp⟩

theorem isInOrder_append {given more : List (Parameter × String)} :
    IsInOrder (given ++ more) ↔ IsInOrder given ∧ IsInOrder more ∧
      ∀ x ∈ given, ∀ y ∈ more, y.1 = .environment ∨ x.1 ≠ y.1 := by
  constructor
  · rintro ⟨honce, hfine⟩
    obtain ⟨hgiven, hmore, hboth⟩ := List.pairwise_append.mp honce
    obtain ⟨hgiven', hmore'⟩ := List.forall_mem_append.mp hfine
    exact ⟨⟨hgiven, hgiven'⟩, ⟨hmore, hmore'⟩, hboth⟩
  · rintro ⟨⟨hgiven, hgiven'⟩, ⟨hmore, hmore'⟩, hboth⟩
    exact ⟨List.pairwise_append.mpr ⟨hgiven, hmore, hboth⟩, List.forall_mem_append.mpr ⟨hgiven', hmore'⟩⟩

/-- One more parameter is accepted if it is new or may be given again, and nothing is wrong with its value. -/
theorem isInOrder_append_singleton {given : List (Parameter × String)} {p : Parameter} {value : String} :
    IsInOrder (given ++ [(p, value)]) ↔ IsInOrder given ∧ (p ≠ .environment → p ∉ given.map (·.1)) ∧
      Reader.valueFlaw? p value = none := by
  rw [isInOrder_append]
  constructor
  · rintro ⟨hgiven, hlast, hboth⟩
    refine ⟨hgiven, fun hp hmem => ?_, hlast.fine (p, value) (by simp)⟩
    obtain ⟨x, hx, hxp⟩ := List.mem_map.mp hmem
    exact (hboth x hx (p, value) (by simp)).elim hp fun hne => hne hxp
  · rintro ⟨hgiven, hnew, hvalue⟩
    refine ⟨hgiven, ⟨List.pairwise_singleton _ _, by simpa using hvalue⟩, ?_⟩
    simp only [List.mem_singleton, forall_eq]
    intro x hx
    by_cases hp : p = .environment
    · exact .inl hp
    · exact .inr fun hxp => hnew hp (hxp ▸ List.mem_map_of_mem hx)

/-! ## States -/

namespace State

/-- What has been taken in, and what waits with its value to be. -/
def taken (s : State) : List (Parameter × String) :=
  s.given ++ match s.waiting with
    | some (p, some value) => [(p, value)]
    | _ => []

/-- An option waits for its value. -/
def Lacks (s : State) (p : Parameter) : Prop := s.waiting = some (p, none)

/-- What has been taken in is in order, and it is known whether there has been a file, which waits for no value. -/
structure IsSound (s : State) : Prop where
  given : IsInOrder s.given
  hasFile : s.hasFile = true ↔ .file ∈ s.taken.map (·.1)
  not_lacks : ¬ s.Lacks .file

/-- What waited has been taken in, and something else waits. -/
def passOn (s : State) (waiting : Option (Parameter × Option String)) : State :=
  { s with given := s.taken, waiting := waiting }

/-- What waited has been taken in, and one more parameter. -/
def add (s : State) (p : Parameter) (value : String) : State :=
  { s with given := s.taken ++ [(p, value)], waiting := none }

/-- An option waits with its value. -/
def fill (s : State) (p : Parameter) (value : String) : State := { s with waiting := some (p, some value) }

/-- What waited has been taken in, and a file waits. -/
def addFile (s : State) (path : String) : State :=
  { s with given := s.taken, waiting := some (.file, some path), hasFile := true }

variable {s : State} {p : Parameter} {value : String}

theorem not_lacks_of_waiting_eq_none (h : s.waiting = none) (p : Parameter) : ¬ s.Lacks p := by
  rw [Lacks, h]
  exact nofun

theorem taken_of_lacks (h : s.Lacks p) : s.taken = s.given := by
  rw [taken, h]
  exact List.append_nil _

@[simp] theorem taken_add : (s.add p value).taken = s.taken ++ [(p, value)] := List.append_nil _

/-- A file that is in order with what has been taken in is the first one. -/
theorem IsSound.hasFile_eq_false (h : s.IsSound) {path : String} {given : List (Parameter × String)}
    (hfile : IsInOrder (s.taken ++ (.file, path) :: given)) : s.hasFile = false := by
  rw [Bool.eq_false_iff, Ne, h.hasFile]
  intro hmem
  obtain ⟨x, hx, hxfile⟩ := List.mem_map.mp hmem
  exact ((isInOrder_append.mp hfile).2.2 x hx _ List.mem_cons_self).elim nofun fun hne => hne hxfile

/-- One more parameter leaves a sound state if it is in order with the others and is not the file. -/
theorem IsSound.add (h : s.IsSound) (hadded : IsInOrder (s.taken ++ [(p, value)])) (hp : p ≠ .file) :
    (s.add p value).IsSound where
  given := hadded
  hasFile := by
    have hhasFile : (s.add p value).hasFile = s.hasFile := rfl
    rw [hhasFile, h.hasFile, taken_add, List.map_append, List.mem_append]
    simp [hp.symm]
  not_lacks := not_lacks_of_waiting_eq_none rfl _

end State

/-! ## What the reader does -/

namespace Reader

variable {x : Reader Unit} {f : Unit → Reader Unit} {s s' : State} {p : Parameter} {value : String}

/-- A reader comes from one state to another, with nothing wrong. -/
def Goes (r : Reader Unit) (s s' : State) : Prop := r.run s = (.ok (), s')

theorem goes_pure : Goes (pure ()) s s' ↔ s' = s :=
  ⟨fun h => by cases h; rfl, fun h => h ▸ rfl⟩

theorem goes_modify {g : State → State} : Goes (modify g) s s' ↔ s' = g s :=
  ⟨fun h => by cases h; rfl, fun h => h ▸ rfl⟩

theorem goes_get_bind {f : State → Reader Unit} : Goes (get >>= f) s s' ↔ Goes (f s) s s' := Iff.rfl

theorem goes_givenParameters_bind {f : List Parameter → Reader Unit} :
    Goes (givenParameters >>= f) s s' ↔ Goes (f (s.given.map (·.1))) s s' := Iff.rfl

theorem not_goes_throw {flaw : Flaw} : ¬ Goes (throw flaw) s s' := fun h => by cases h

/-- Two readers in a row. -/
theorem goes_bind : Goes (x >>= f) s s' ↔ ∃ t, Goes x s t ∧ Goes (f ()) t s' := by
  unfold Goes
  rw [ExceptT.run_bind]
  change StateT.bind x.run _ s = _ ↔ _
  unfold StateT.bind
  rcases x.run s with ⟨_ | _, t⟩
  · refine ⟨fun h => ?_, ?_⟩
    · cases h
    · rintro ⟨t', h, -⟩
      cases h
  · refine ⟨fun h => ⟨t, rfl, h⟩, ?_⟩
    rintro ⟨t', h, h'⟩
    cases h
    exact h'

/-- Nothing goes on behind what is wrong. -/
theorem not_goes_bind_throw {flaw : Flaw} : ¬ Goes (x >>= fun _ => throw flaw) s s' := fun h => by
  obtain ⟨t, -, h⟩ := goes_bind.mp h
  exact not_goes_throw h

/-- A parameter is taken in if it is in order with those before it. -/
theorem goes_takeIn (hs : IsInOrder s.given) : Goes (takeIn p value) s s' ↔
    IsInOrder (s.given ++ [(p, value)]) ∧ s' = { s with given := s.given ++ [(p, value)] } := by
  rw [isInOrder_append_singleton, takeIn, goes_givenParameters_bind]
  by_cases hagain : p ≠ .environment ∧ p ∈ s.given.map (·.1)
  · rw [if_pos hagain]
    refine ⟨fun h => ?_, fun h => absurd hagain.2 (h.1.2.1 hagain.1)⟩
    obtain ⟨t, -, h⟩ := goes_bind.mp h
    obtain ⟨t', h, -⟩ := goes_bind.mp h
    exact absurd h not_goes_throw
  · rw [if_neg hagain]
    cases hvalue : valueFlaw? p value with
    | some flaw => simp [not_goes_bind_throw]
    | none =>
      have hnew : p ≠ .environment → p ∉ s.given.map (·.1) := fun hp hmem => hagain ⟨hp, hmem⟩
      rw [goes_bind]
      simp only [goes_modify, goes_pure, exists_eq_left]
      exact ⟨fun h => ⟨⟨hs, hnew, trivial⟩, h⟩, fun h => h.2⟩

/-- What waits is taken in if its value is there and it is in order with what is before it. -/
theorem goes_settle (hs : IsInOrder s.given) :
    Goes settle s s' ↔ (∀ p, ¬ s.Lacks p) ∧ IsInOrder s.taken ∧ s' = s.passOn none := by
  rw [settle, goes_get_bind]
  obtain ⟨given, _ | ⟨p, _ | value⟩, isPlain, hasFile⟩ := s
  · rw [goes_pure]
    simp [State.Lacks, State.taken, State.passOn, hs]
  · refine ⟨fun h => absurd h not_goes_bind_throw, fun h => absurd rfl (h.1 p)⟩
  · have hmodify (t : State) : Goes (modify fun s => { s with waiting := none })
        ⟨given, some (p, some value), isPlain, hasFile⟩ t ↔ t = ⟨given, none, isPlain, hasFile⟩ := goes_modify
    refine goes_bind.trans ?_
    simp only [hmodify, exists_eq_left]
    rw [goes_takeIn (s := ⟨given, none, isPlain, hasFile⟩) hs]
    simp [State.Lacks, State.taken, State.passOn]

/-- Something is done when what waits has been taken in. -/
theorem goes_settle_bind (hs : IsInOrder s.given) : Goes (settle >>= f) s s' ↔
    (∀ p, ¬ s.Lacks p) ∧ IsInOrder s.taken ∧ Goes (f ()) (s.passOn none) s' := by
  rw [goes_bind]
  constructor
  · rintro ⟨t, ht, h⟩
    obtain ⟨hlacks, htaken, rfl⟩ := (goes_settle hs).mp ht
    exact ⟨hlacks, htaken, h⟩
  · rintro ⟨hlacks, htaken, h⟩
    exact ⟨s.passOn none, (goes_settle hs).mpr ⟨hlacks, htaken, rfl⟩, h⟩

theorem goes_takeIn_passOn : IsInOrder s.taken ∧ Goes (takeIn p value) (s.passOn none) s' ↔
    IsInOrder (s.taken ++ [(p, value)]) ∧ s' = s.add p value := by
  constructor
  · rintro ⟨htaken, h⟩
    exact (goes_takeIn (s := s.passOn none) htaken).mp h
  · rintro ⟨hadded, rfl⟩
    have htaken := (isInOrder_append.mp hadded).1
    exact ⟨htaken, (goes_takeIn (s := s.passOn none) htaken).mpr ⟨hadded, rfl⟩⟩

/-- An option without a value. -/
theorem goes_flag (hs : IsInOrder s.given) : Goes (flag p) s s' ↔
    p ≠ .help ∧ (∀ p, ¬ s.Lacks p) ∧ IsInOrder (s.taken ++ [(p, "")]) ∧ s' = s.add p "" := by
  rw [flag, goes_settle_bind hs]
  split
  · rename_i hp
    simp [hp, not_goes_throw]
  · rename_i hp
    rw [goes_takeIn_passOn]
    simp [hp]

/-- An option whose value is attached. -/
theorem goes_valued_some (hs : IsInOrder s.given) : Goes (valued p (some value)) s s' ↔
    (∀ p, ¬ s.Lacks p) ∧ IsInOrder (s.taken ++ [(p, value)]) ∧ s' = s.add p value := by
  rw [valued, goes_settle_bind hs, goes_takeIn_passOn]

/-- An option that has to wait for its value. -/
theorem goes_valued_none (hs : IsInOrder s.given) : Goes (valued p none) s s' ↔
    (∀ p, ¬ s.Lacks p) ∧ IsInOrder s.taken ∧ s' = s.passOn (some (p, none)) := by
  rw [valued, goes_settle_bind hs]
  exact and_congr_right fun _ => and_congr_right fun _ => goes_modify

/-- The file, which waits like an option with its value. -/
theorem goes_file (hs : IsInOrder s.given) : Goes (file value) s s' ↔
    s.hasFile = false ∧ (∀ p, ¬ s.Lacks p) ∧ IsInOrder s.taken ∧ s' = s.addFile value := by
  rw [file, goes_get_bind]
  split
  · rename_i hfile
    simp only [hfile, Bool.true_eq_false, false_and, iff_false]
    exact not_goes_bind_throw
  · rename_i hfile
    rw [goes_settle_bind hs, Bool.not_eq_true] at *
    simp only [hfile, true_and]
    exact and_congr_right fun _ => and_congr_right fun _ => goes_modify

end Reader

end Scratchpad.CommandLine
