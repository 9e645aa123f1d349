import Scratchpad.TypeScript.Document

/-!
# Running rules

What a rule does with a state, from what its parts do. The rules that only look leave the state as it is, and
a token without notices becomes the current one without anything else being changed.

## Main definitions

* `Rule.collect`: one more item of a list that a rule collects.
* `Rule.Keeps`: a rule that delivers a value from every state, calls no goal and keeps the mode.

## Main statements

* `Rule.run_bind`: a rule and another one that goes on from its value.
* `Rule.keeps_settle`: whatever was noted about it, a token becomes the current one.
* `Rule.run_repeatStep_collect`: what has been collected stands in front of what is still to come.
-/

namespace Scratchpad.TypeScript

namespace Rule

section

variable {α β σ : Type} (ρ : Reading) (s : State)

@[simp] theorem run_pure (a : α) : (pure a : Rule α) ρ s = .ok a s := rfl

theorem run_bind (r : Rule α) (f : α → Rule β) :
    (r >>= f) ρ s = match r ρ s with
      | .ok a s' => f a ρ s'
      | .error flaw s' => .error flaw s' := by
  change EStateM.bind (r ρ) (fun a => f a ρ) s = _
  rw [EStateM.bind]
  cases r ρ s <;> rfl

variable {ρ s} in
theorem run_bind_of_ok {r : Rule α} {f : α → Rule β} {a : α} {s' : State} (h : r ρ s = .ok a s') :
    (r >>= f) ρ s = f a ρ s' := by
  rw [run_bind, h]

theorem run_tryCatch (r : Rule α) (f : Flaw → Rule α) :
    (tryCatch r f) ρ s = match r ρ s with
      | .ok a s' => .ok a s'
      | .error flaw s' => f flaw ρ s' := by
  change EStateM.tryCatch (r ρ) (fun flaw => f flaw ρ) s = _
  delta EStateM.tryCatch
  cases r ρ s <;> rfl

theorem run_within (change : Mode → Mode) (r : Rule α) :
    within change r ρ s = match r ρ { s with mode := change s.mode } with
      | .ok a s' => .ok a { s' with mode := s.mode }
      | .error flaw s' => .error flaw { s' with mode := s.mode } := rfl

theorem run_map (f : α → β) (r : Rule α) :
    (f <$> r) ρ s = match r ρ s with
      | .ok a s' => .ok (f a) s'
      | .error flaw s' => .error flaw s' := by
  change EStateM.map f (r ρ) s = _
  rw [EStateM.map]
  cases r ρ s <;> rfl

/-! ### Looking -/

@[simp] theorem run_get : (get : Rule State) ρ s = .ok s s := rfl

@[simp] theorem run_current : current ρ s = .ok s.token s := rfl

@[simp] theorem run_lexeme : lexeme ρ s = .ok s.token.lexeme s := rfl

@[simp] theorem run_here : here ρ s = .ok s.token.start s := rfl

@[simp] theorem run_mode : mode ρ s = .ok s.mode s := rfl

@[simp] theorem run_ahead : ahead ρ s = .ok (scanToken s.source s.token.stop) s := rfl

@[simp] theorem run_afterLine : afterLine ρ s = .ok s.token.startsLine s := rfl

@[simp] theorem run_atEnd : atEnd ρ s = .ok (s.token.lexeme == .done) s := rfl

@[simp] theorem run_atName : atName ρ s = .ok (isName s.mode s.token.lexeme) s := rfl

@[simp] theorem run_atMark (m : String) : atMark m ρ s = .ok (s.token.lexeme.isMark m) s := rfl

@[simp] theorem run_atWord (w : String) : atWord w ρ s = .ok (s.token.lexeme.isWord w) s := rfl

@[simp] theorem run_atMarks (ms : List String) :
    atMarks ms ρ s = .ok (ms.any s.token.lexeme.isMark) s := rfl

@[simp] theorem run_atWords (ws : List String) :
    atWords ws ρ s = .ok (ws.any s.token.lexeme.isWord) s := rfl

/-! ### Flaws -/

theorem exists_failHere (fault : Fault) : ∃ flaw, (failHere fault : Rule α) ρ s = .error flaw s := by
  simp only [failHere, fail, run_bind, run_here, run_lexeme]
  cases s.token.lexeme with
  | broken flaw => exact ⟨flaw, rfl⟩
  | _ => exact ⟨⟨s.token.start, fault⟩, rfl⟩

/-- A rule that delivers a value from every state, calls no goal and keeps the mode. -/
def Keeps (r : Rule α) (a : α) : Prop := ∀ s, ∃ s', (∀ ρ, r ρ s = .ok a s') ∧ s'.mode = s.mode

theorem Keeps.bind {r : Rule α} {f : α → Rule β} {a : α} {b : β} (hr : Keeps r a) (hf : Keeps (f a) b) :
    Keeps (r >>= f) b := by
  intro s
  obtain ⟨s', hs', hmode⟩ := hr s
  obtain ⟨s'', hs'', hmode'⟩ := hf s'
  refine ⟨s'', fun ρ => ?_, hmode'.trans hmode⟩
  rw [run_bind, hs']
  exact hs'' ρ

/-- What such a rule does may depend on what it looks at. -/
theorem Keeps.look {r : Rule α} {f : α → Rule β} {b : β} {a : State → α} (hr : ∀ ρ s, r ρ s = .ok (a s) s)
    (hf : ∀ a, Keeps (f a) b) : Keeps (r >>= f) b := by
  intro s
  obtain ⟨s', hs', hmode⟩ := hf (a s) s
  exact ⟨s', fun ρ => by rw [run_bind, hr]; exact hs' ρ, hmode⟩

theorem keeps_pure (a : α) : Keeps (pure a) a := fun s => ⟨s, fun _ => rfl, rfl⟩

theorem keeps_modify {f : State → State} (h : ∀ s, (f s).mode = s.mode) : Keeps (modify f) () :=
  fun s => ⟨f s, fun _ => rfl, h s⟩

theorem keeps_forIn {f : α → Unit → Rule (ForInStep Unit)} (h : ∀ a, Keeps (f a ()) (.yield ()))
    (as : List α) : Keeps (forIn as () f) () := by
  induction as with
  | nil => exact keeps_pure ()
  | cons a as ih =>
    rw [List.forIn_cons]
    exact (h a).bind ih

theorem keeps_note (flaw : Flaw) : Keeps (note flaw) () :=
  keeps_modify fun s => by split <;> rfl

theorem keeps_report (pos : Nat) (fault : Fault) : Keeps (report pos fault) () := by
  refine .look run_lexeme fun l => ?_
  cases l with
  | broken flaw => exact (keeps_note flaw).bind (keeps_note ⟨pos, fault⟩)
  | _ => exact keeps_note ⟨pos, fault⟩

theorem keeps_reportStrict (pos : Nat) (fault : Fault) : Keeps (reportStrict pos fault) () := by
  refine .look run_mode fun m => ?_
  split
  · exact keeps_report pos fault
  · exact keeps_modify fun s => by split <;> rfl

/-- Whatever was noted about it, a token becomes the current one. -/
theorem keeps_settle (t : Token) : Keeps (settle t) () := by
  rw [settle]
  refine Keeps.bind (keeps_modify fun s => rfl) (Keeps.bind (keeps_forIn (fun n => ?_) t.notices)
    (keeps_pure ()))
  cases n.scope with
  | anywhere => exact (keeps_note n.flaw).bind (keeps_pure _)
  | strictCode => exact (keeps_reportStrict n.flaw.pos n.flaw.fault).bind (keeps_pure _)
  | moduleCode =>
    refine .look run_mode fun m => ?_
    split
    · exact (keeps_note n.flaw).bind (keeps_pure _)
    · refine Keeps.bind (keeps_modify fun s => ?_) (keeps_pure _)
      split <;> rfl

/-! ### Stepping -/

theorem run_settle {t : Token} (h : t.notices = []) :
    settle t ρ s = .ok () { s with token := revealed s.mode t } := by
  rw [settle, h]
  rfl

theorem run_advance {t : Token} (ht : scanToken s.source s.token.stop = t) (h : t.notices = []) :
    advance ρ s = .ok () { s with
      token := revealed s.mode t, lastStop := s.token.stop, lastStart := s.token.start } := by
  subst ht
  exact run_settle ρ _ h

theorem run_eatMark_of_not {m : String} (h : s.token.lexeme.isMark m = false) :
    eatMark m ρ s = .ok false s := by
  simp [eatMark, run_bind, h]

theorem run_eatWord_of_not {w : String} (h : s.token.lexeme.isWord w = false) :
    eatWord w ρ s = .ok false s := by
  simp [eatWord, run_bind, h]

/-! ### Repeating -/

/-- Reads one more item of a list, latest first, or ends the list. -/
def collect (r : Rule (Option α)) (acc : List α) : Rule (List α ⊕ List α) := do
  match ← r with
  | some a => return .inl (a :: acc)
  | none => return .inr acc.reverse

theorem run_many (r : Rule (Option α)) :
    many r ρ s = repeatStep (collect r) (s.source.size + 2) [] ρ s := rfl

/-- One turn of a rule that collects. -/
theorem run_repeatStep_collect_succ (r : Rule (Option α)) (limit : Nat) (acc : List α) :
    repeatStep (collect r) (limit + 1) acc ρ s = match r ρ s with
      | .ok (some a) s' => repeatStep (collect r) limit (a :: acc) ρ s'
      | .ok none s' => .ok acc.reverse s'
      | .error flaw s' => .error flaw s' := by
  rw [repeatStep, run_bind, collect, run_bind]
  cases r ρ s with
  | error flaw s' => rfl
  | ok item s' => cases item <;> rfl

theorem run_many_of_none {r : Rule (Option α)} (h : r ρ s = .ok none s) : many r ρ s = .ok [] s := by
  rw [run_many, run_repeatStep_collect_succ, h]
  rfl

theorem run_repeatStep_collect_of_error {r : Rule (Option α)} {flaw : Flaw} {s' : State}
    (h : r ρ s = .error flaw s') (limit : Nat) :
    repeatStep (collect r) (limit + 1) [] ρ s = .error flaw s' := by
  rw [run_repeatStep_collect_succ, h]

/-- What has been collected stands in front of what is still to come. -/
theorem run_repeatStep_collect (r : Rule (Option α)) (limit : Nat) (acc : List α) :
    repeatStep (collect r) limit acc ρ s =
      ((acc.reverse ++ ·) <$> repeatStep (collect r) limit []) ρ s := by
  induction limit generalizing acc s with
  | zero =>
    obtain ⟨flaw, h⟩ := @exists_failHere (List α) ρ s .nestingTooDeep
    have hzero : ∀ acc, repeatStep (collect r) 0 acc ρ s = .error flaw s := fun _ => h
    rw [run_map, hzero, hzero]
  | succ limit ih =>
    rw [run_map, run_repeatStep_collect_succ, run_repeatStep_collect_succ]
    cases r ρ s with
    | error flaw s' => rfl
    | ok item s' =>
      cases item with
      | none => simp
      | some a =>
        dsimp only
        rw [ih, ih s' [a], run_map, run_map]
        cases repeatStep (collect r) limit [] ρ s' <;> simp

theorem run_repeatStep_collect_of_some {r : Rule (Option α)} {a : α} {s' : State}
    (h : r ρ s = .ok (some a) s') (limit : Nat) :
    repeatStep (collect r) (limit + 1) [] ρ s = ((a :: ·) <$> repeatStep (collect r) limit []) ρ s' := by
  rw [run_repeatStep_collect_succ, h]
  exact run_repeatStep_collect ρ s' r limit [a]

end

end Rule

namespace Grammar

open Rule

variable (ρ : Reading) (s : State)

theorem run_decorators (h : s.token.lexeme.isMark "@" = false) : decorators ρ s = .ok [] s := by
  refine run_many_of_none ρ s ?_
  simp [run_bind, run_eatMark_of_not ρ s h]

end Grammar

end Scratchpad.TypeScript
