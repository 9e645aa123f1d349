import Mathlib.Data.List.Basic
import Scratchpad.Environment

/-!
# Ordered environments

The bindings of an environment that has been made by binding names one after another are in the order of their names,
no two of one name. Such an environment is determined by the values of its names.

## Main definitions

* `Environment.IsOrdered`: bindings in the order of their names, each name once.

## Main statements

* `Environment.isOrdered_ofList`: environments that are made by binding names are ordered.
* `Environment.IsOrdered.ext`: ordered environments are equal if they bind every name alike.
* `Environment.IsOrdered.mem_extend_iff`: of many bindings, the last one of each name counts.
-/

namespace Scratchpad.Environment

/-- The bindings are in the order of their names, and every name is bound once. -/
def IsOrdered (e : Environment) : Prop := e.bindings.Pairwise fun b c => b.1 < c.1

instance (e : Environment) : Decidable e.IsOrdered := inferInstanceAs (Decidable (e.bindings.Pairwise _))

variable {name value : String} {bs cs : List (String × String)}

theorem isOrdered_empty : empty.IsOrdered := List.Pairwise.nil

/-! ## Binding names -/

theorem eq_or_mem_of_mem_insertBinding {b : String × String} (h : b ∈ insertBinding name value bs) :
    b = (name, value) ∨ b ∈ bs := by
  fun_induction insertBinding name value bs with
  | case1 => simpa using h
  | case2 v rest => exact (List.mem_cons.mp h).imp_right (List.mem_cons_of_mem _)
  | case3 n v rest hne hlt => exact List.mem_cons.mp h
  | case4 n v rest hne hlt ih =>
    obtain rfl | hmem := List.mem_cons.mp h
    · exact .inr List.mem_cons_self
    · exact (ih hmem).imp_right (List.mem_cons_of_mem _)

theorem pairwise_insertBinding (h : bs.Pairwise fun b c => b.1 < c.1) :
    (insertBinding name value bs).Pairwise fun b c => b.1 < c.1 := by
  fun_induction insertBinding name value bs with
  | case1 => exact List.pairwise_singleton _ _
  | case2 v rest => exact List.pairwise_cons.mpr (List.pairwise_cons.mp h)
  | case3 n v rest hne hlt =>
    refine List.pairwise_cons.mpr ⟨fun b hb => ?_, h⟩
    obtain rfl | hb := List.mem_cons.mp hb
    · exact hlt
    · exact String.lt_trans hlt ((List.pairwise_cons.mp h).1 b hb)
  | case4 n v rest hne hlt ih =>
    obtain ⟨hn, hrest⟩ := List.pairwise_cons.mp h
    refine List.pairwise_cons.mpr ⟨fun b hb => ?_, ih hrest⟩
    obtain rfl | hb := eq_or_mem_of_mem_insertBinding hb
    · exact Std.lt_of_le_of_ne (String.not_lt.mp hlt) (Ne.symm hne)
    · exact hn b hb

theorem IsOrdered.insert {e : Environment} (h : e.IsOrdered) (name value : String) : (e.insert name value).IsOrdered :=
  pairwise_insertBinding h

theorem IsOrdered.extend {e : Environment} (h : e.IsOrdered) (bindings : List (String × String)) :
    (e.extend bindings).IsOrdered := by
  induction bindings generalizing e with
  | nil => exact h
  | cons b bindings ih => exact ih (h.insert b.1 b.2)

/-- Binding names one after another keeps the bindings in order. -/
theorem isOrdered_ofList (bindings : List (String × String)) : (ofList bindings).IsOrdered :=
  isOrdered_empty.extend bindings

/-! ## What determines an environment -/

theorem lookup_of_mem (h : bs.Pairwise fun b c => b.1 < c.1) (hmem : (name, value) ∈ bs) :
    bs.lookup name = some value := by
  induction bs with
  | nil => cases hmem
  | cons b bs ih =>
    obtain ⟨hb, hbs⟩ := List.pairwise_cons.mp h
    rw [lookup_cons_pair]
    obtain rfl | hmem := List.mem_cons.mp hmem
    · rw [if_pos rfl]
    · have hlt := hb _ hmem
      rw [if_neg fun heq => String.lt_irrefl _ (heq ▸ hlt), ih hbs hmem]

theorem lookup_eq_some_iff_mem (h : bs.Pairwise fun b c => b.1 < c.1) {b : String × String} :
    bs.lookup b.1 = some b.2 ↔ b ∈ bs := by
  refine ⟨fun hlookup => ?_, lookup_of_mem h⟩
  obtain ⟨before, after, rfl, -⟩ := List.lookup_eq_some_iff.mp hlookup
  simp

theorem eq_of_lookup_eq (hbs : bs.Pairwise fun b c => b.1 < c.1) (hcs : cs.Pairwise fun b c => b.1 < c.1)
    (h : ∀ name, bs.lookup name = cs.lookup name) : bs = cs := by
  have hmem (b : String × String) : b ∈ bs ↔ b ∈ cs := by
    rw [← lookup_eq_some_iff_mem hbs, ← lookup_eq_some_iff_mem hcs, h]
  have hnodup {bs : List (String × String)} (hbs : bs.Pairwise fun b c => b.1 < c.1) : bs.Nodup := by
    refine hbs.imp fun {b c} hlt heq => ?_
    rw [heq] at hlt
    exact String.lt_irrefl _ hlt
  refine List.Perm.eq_of_pairwise (fun b c _ _ hbc hcb => ?_) hbs hcs
    ((List.perm_ext_iff_of_nodup (hnodup hbs) (hnodup hcs)).mpr hmem)
  exact absurd (String.lt_trans hbc hcb) (String.lt_irrefl _)

/-- Ordered environments are equal if they bind every name alike. -/
theorem IsOrdered.ext {e f : Environment} (he : e.IsOrdered) (hf : f.IsOrdered)
    (h : ∀ name, e.get? name = f.get? name) : e = f := by
  obtain ⟨bs⟩ := e
  obtain ⟨cs⟩ := f
  exact congrArg mk (eq_of_lookup_eq he hf h)

/-! ## Binding many names -/

/-- The value of a name after many bindings is that of its last one, or what it was. -/
theorem get?_extend (e : Environment) (bindings : List (String × String)) (name : String) :
    (e.extend bindings).get? name = (bindings.reverse.lookup name).or (e.get? name) := by
  induction bindings generalizing e with
  | nil => rfl
  | cons b bindings ih =>
    have hcons : e.extend (b :: bindings) = (e.insert b.1 b.2).extend bindings := rfl
    rw [hcons, ih, get?_insert, List.reverse_cons, List.lookup_append, List.lookup_singleton, Option.or_assoc]
    congr 1
    by_cases h : name = b.1 <;> simp [h]

theorem lookup_reverse_eq_some_iff : bs.reverse.lookup name = some value ↔
    ∃ before after, bs = before ++ (name, value) :: after ∧ ∀ b ∈ after, b.1 ≠ name := by
  rw [List.lookup_eq_some_iff]
  constructor
  · rintro ⟨after, before, hbs, hafter⟩
    refine ⟨before.reverse, after.reverse, ?_, fun b hb => ?_⟩
    · simpa using congrArg List.reverse hbs
    · exact (bne_iff_ne.mp (hafter b (List.mem_reverse.mp hb))).symm
  · rintro ⟨before, after, rfl, hafter⟩
    refine ⟨after.reverse, before.reverse, by simp, fun b hb => ?_⟩
    exact bne_iff_ne.mpr (hafter b (List.mem_reverse.mp hb)).symm

theorem lookup_reverse_eq_none_iff : bs.reverse.lookup name = none ↔ ∀ b ∈ bs, b.1 ≠ name := by
  simp only [List.lookup_eq_none_iff, List.mem_reverse, bne_iff_ne, ne_comm]

theorem IsOrdered.mem_bindings_iff {e : Environment} (h : e.IsOrdered) :
    (name, value) ∈ e.bindings ↔ e.get? name = some value := (lookup_eq_some_iff_mem h).symm

/-- **The last binding of a name counts**, and a name that is not bound anew keeps its value. -/
theorem IsOrdered.mem_extend_iff {e : Environment} (h : e.IsOrdered) :
    (name, value) ∈ (e.extend bs).bindings ↔
      (∃ before after, bs = before ++ (name, value) :: after ∧ ∀ b ∈ after, b.1 ≠ name) ∨
      ((∀ b ∈ bs, b.1 ≠ name) ∧ (name, value) ∈ e.bindings) := by
  rw [(h.extend bs).mem_bindings_iff, h.mem_bindings_iff, get?_extend, Option.or_eq_some_iff,
    lookup_reverse_eq_some_iff, lookup_reverse_eq_none_iff]

end Scratchpad.Environment
