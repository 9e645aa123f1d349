import Mathlib.Data.List.Basic

/-!
# Systems that go on and lists that change in place

A system goes from state to state, and says something at every step. What it has said after some steps is
what it said at each of them, one after another. What many share is kept in lists, of which one item is
changed at a time. What may fail is done as far as nothing fails.

## Main definitions

* `said`: what is said on the way.

## Main statements

* `said_append_singleton`: what is said at the last step comes last.
* `foldl_said`: what shows of a state follows from what is said on the way.
* `said_induction`: what every step keeps of a state and of what has been said.
* `said_eq_of_corresponds`: systems that correspond say the same.
* `map_modify_of_eq`: what one item is changed in does not show where it is not looked at.
* `exists_of_bind_eq_ok`: what needs something that may fail is done with it.
* `modify_append_map`: what is done to an item behind others is done to it where they are not.
-/

namespace Scratchpad

variable {σ τ ε α β : Type}

/-- What is said while states follow one another. -/
def said (next : σ → τ → σ) (say : σ → τ → List ε) : σ → List τ → List ε
  | _, [] => []
  | s, t :: ts => say s t ++ said next say (next s t) ts

@[simp] theorem said_nil (next : σ → τ → σ) (say : σ → τ → List ε) (s : σ) : said next say s [] = [] := rfl

/-- What is said at some steps and then at others. -/
theorem said_append (next : σ → τ → σ) (say : σ → τ → List ε) (s : σ) (ts us : List τ) :
    said next say s (ts ++ us) = said next say s ts ++ said next say (ts.foldl next s) us := by
  induction ts generalizing s with
  | nil => rfl
  | cons t ts ih => simp [said, ih]

@[simp] theorem said_append_singleton (next : σ → τ → σ) (say : σ → τ → List ε) (s : σ) (ts : List τ)
    (t : τ) : said next say s (ts ++ [t]) = said next say s ts ++ say (ts.foldl next s) t := by
  simp [said_append, said]

/-- Whatever is said is said at one of the steps. -/
theorem exists_of_mem_said {next : σ → τ → σ} {say : σ → τ → List ε} {s : σ} {ts : List τ} {e : ε}
    (he : e ∈ said next say s ts) :
    ∃ before t after, ts = before ++ t :: after ∧ e ∈ say (before.foldl next s) t := by
  induction ts generalizing s with
  | nil => cases he
  | cons t ts ih =>
    rcases List.mem_append.mp he with he | he
    · exact ⟨[], t, ts, rfl, he⟩
    · obtain ⟨before, t', after, rfl, he'⟩ := ih he
      exact ⟨t :: before, t', after, rfl, he'⟩

/-- What shows of a state follows from what is said on the way, if it does so at every step. -/
theorem foldl_said {next : σ → τ → σ} {say : σ → τ → List ε} {f : σ → α} {apply : α → ε → α}
    (h : ∀ s t, f (next s t) = (say s t).foldl apply (f s)) (s : σ) (ts : List τ) :
    f (ts.foldl next s) = (said next say s ts).foldl apply (f s) := by
  induction ts generalizing s with
  | nil => rfl
  | cons t ts ih => rw [List.foldl_cons, ih, said, List.foldl_append, h]

/-- What is kept of a state and of what has been said so far by every step is kept by all of them. -/
theorem said_induction {next : σ → τ → σ} {say : σ → τ → List ε} {P : List ε → σ → Prop} {s : σ}
    {log : List ε} (h : P log s) (hstep : ∀ log s t, P log s → P (log ++ say s t) (next s t))
    (ts : List τ) : P (log ++ said next say s ts) (ts.foldl next s) := by
  induction ts generalizing log s with
  | nil => simpa using h
  | cons t ts ih =>
    rw [said, ← List.append_assoc, List.foldl_cons]
    exact ih (hstep log s t h)

/-- Systems that say the same as long as they correspond, and that go on corresponding, say the same all the way. -/
theorem said_eq_of_corresponds {ρ : Type} {next : σ → τ → σ} {say : σ → τ → List ε} {next' : ρ → τ → ρ}
    {say' : ρ → τ → List ε} {R : σ → ρ → Prop}
    (hstep : ∀ s r t, R s r → say s t = say' r t ∧ R (next s t) (next' r t)) {s : σ} {r : ρ} (h : R s r) (ts : List τ) :
    said next say s ts = said next' say' r ts ∧ R (ts.foldl next s) (ts.foldl next' r) := by
  induction ts generalizing s r with
  | nil => exact ⟨rfl, h⟩
  | cons t ts ih =>
    obtain ⟨hsay, hnext⟩ := hstep s r t h
    obtain ⟨hsaid, hlast⟩ := ih hnext
    exact ⟨by rw [said, said, hsay, hsaid], hlast⟩

/-- What one item is changed in does not show where it is not looked at. -/
theorem map_modify_of_eq {f : α → α} {g : α → β} (h : ∀ a, g (f a) = g a) {i : Nat}
    {l : List α} : (l.modify i f).map g = l.map g := by
  apply List.ext_getElem?
  intro j
  rw [List.getElem?_map, List.getElem?_map, List.getElem?_modify]
  by_cases hj : i = j <;> cases l[j]? <;> simp [hj, h]

/-- An item that has just been added is the one that is changed. -/
theorem modify_length_append (f : α → α) (l : List α) (a : α) :
    (l ++ [a]).modify l.length f = l ++ [f a] := by
  induction l with
  | nil => rfl
  | cons b l ih => simpa using ih

/-! ## What may fail -/

/-- What needs something that may fail is done with it, if it is done. -/
theorem exists_of_bind_eq_ok {x : Except ε α} {f : α → Except ε β} {b : β} (h : x >>= f = .ok b) :
    ∃ a, x = .ok a ∧ f a = .ok b := by
  cases x with
  | error e => cases h
  | ok a => exact ⟨a, rfl, h⟩

/-! ## Lists that go on from others -/

section Append

variable {f : α → α} {g : α → β} {f' : β → β} (past : List β) (l : List α) (i : Nat)

theorem getElem?_append_map : (past ++ l.map g)[past.length + i]? = l[i]?.map g := by
  rw [List.getElem?_append_right (Nat.le_add_right ..), Nat.add_sub_cancel_left, List.getElem?_map]

/-- What is done to an item behind others is done to it where they are not. -/
theorem modify_append_map (h : ∀ a, f' (g a) = g (f a)) :
    (past ++ l.map g).modify (past.length + i) f' = past ++ (l.modify i f).map g := by
  have hmodify : (l.map g).modify i f' = (l.modify i f).map g := by
    apply List.ext_getElem?
    intro j
    rw [List.getElem?_modify, List.getElem?_map, List.getElem?_map, List.getElem?_modify]
    by_cases hj : i = j <;> cases l[j]? <;> simp [hj, h]
  rw [← hmodify]
  exact List.modifyTailIdx_add _ i past (l.map g)

end Append

end Scratchpad
