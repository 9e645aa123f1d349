import Mathlib.Data.List.Nodup
import Scratchpad.Marking

/-!
# Places in syntax trees

A node stands in a tree at the end of a path: which part of the root to go to, which part of that, and so
on. Two nodes may look alike, but no two places are the same, so what a pass over a tree does once for
every node is said by its places.

## Main definitions

* `Node.at?`, `nodeAt?`: the node at a place of a tree, and of several trees side by side.
* `Visits`: a list of nodes has every node of a tree once for each place where it stands.

## Main statements

* `visits_subterms`: a node together with everything below it is every node of the tree, once.
* `Visits.filterMap`: what is picked from the nodes belongs to some of the places, one to one.
-/

namespace Scratchpad.TypeScript

/-- The node at the end of a path, where each step tells which part to go to. -/
def Node.at? (n : Node) : List Nat → Option Node
  | [] => some n
  | k :: path => n.children[k]?.bind (·.at? path)

/-- The node at a place of several trees side by side. The first step tells which tree to go to. -/
def nodeAt? (items : List Node) : List Nat → Option Node
  | [] => none
  | k :: path => items[k]?.bind (·.at? path)

/-- A list of nodes has every node once for each place at which it can be looked up. -/
def Visits (look : List Nat → Option Node) (nodes : List Node) : Prop :=
  ∃ places : List (List Nat), places.Nodup ∧ (∀ place, place ∈ places ↔ (look place).isSome) ∧
    places.map look = nodes.map some

/-! ## Every node once -/

/-- The place of a node once a tree is put before the others. -/
def behindFirst : List Nat → List Nat
  | [] => []
  | k :: path => (k + 1) :: path

theorem behindFirst_injective : Function.Injective behindFirst := by
  intro place place' h
  cases place <;> cases place' <;> simp_all [behindFirst]

theorem nodeAt?_behindFirst (n : Node) (items : List Node) (place : List Nat) :
    nodeAt? (n :: items) (behindFirst place) = nodeAt? items place := by
  cases place <;> rfl

/-- A place among several trees is in the first tree or among the others. -/
theorem isSome_nodeAt?_cons (n : Node) (items : List Node) (place : List Nat) :
    (nodeAt? (n :: items) place).isSome ↔
      (∃ path, (n.at? path).isSome ∧ 0 :: path = place) ∨
        ∃ place', (nodeAt? items place').isSome ∧ behindFirst place' = place := by
  constructor
  · intro h
    match place with
    | [] => cases h
    | 0 :: path => exact .inl ⟨path, h, rfl⟩
    | (k + 1) :: path => exact .inr ⟨k :: path, h, rfl⟩
  · rintro (⟨path, h, rfl⟩ | ⟨place', h, rfl⟩)
    · exact h
    · rwa [nodeAt?_behindFirst]

theorem Visits.nil : Visits (nodeAt? []) [] := by
  refine ⟨[], List.nodup_nil, fun place => ?_, rfl⟩
  cases place <;> simp [nodeAt?]

/-- Trees are visited one after another. -/
theorem Visits.cons {n : Node} {items nodes nodes' : List Node} (h : Visits n.at? nodes)
    (h' : Visits (nodeAt? items) nodes') : Visits (nodeAt? (n :: items)) (nodes ++ nodes') := by
  obtain ⟨places, hnodup, hmem, hmap⟩ := h
  obtain ⟨places', hnodup', hmem', hmap'⟩ := h'
  refine ⟨places.map (0 :: ·) ++ places'.map behindFirst, ?_, ?_, ?_⟩
  · refine List.nodup_append.mpr ⟨?_, ?_, ?_⟩
    · exact List.Nodup.map (fun _ _ heq => (List.cons.inj heq).2) hnodup
    · exact List.Nodup.map behindFirst_injective hnodup'
    · rintro _ hfirst _ hother rfl
      obtain ⟨place, -, hplace⟩ := List.mem_map.mp hfirst
      obtain ⟨place', -, hplace'⟩ := List.mem_map.mp hother
      cases place' <;> simp [behindFirst, ← hplace] at hplace'
  · intro place
    simp only [List.mem_append, List.mem_map, isSome_nodeAt?_cons, hmem, hmem']
  · rw [List.map_append, List.map_append, ← hmap, ← hmap', List.map_map, List.map_map]
    congr 1
    exact List.map_congr_left fun place' _ => nodeAt?_behindFirst n items place'

/-- A node is visited before its parts. -/
theorem Visits.node {n : Node} {nodes : List Node} (h : Visits (nodeAt? n.children) nodes) :
    Visits n.at? (n :: nodes) := by
  obtain ⟨places, hnodup, hmem, hmap⟩ := h
  have hnil : [] ∉ places := fun hin => by simpa [nodeAt?] using (hmem []).mp hin
  refine ⟨[] :: places, List.nodup_cons.mpr ⟨hnil, hnodup⟩, fun place => ?_, ?_⟩
  · cases place with
    | nil => simp [Node.at?]
    | cons k path =>
      have hstep : n.at? (k :: path) = nodeAt? n.children (k :: path) := rfl
      rw [hstep, ← hmem]
      simp
  · rw [List.map_cons, List.map_cons, ← hmap]
    congr 1
    refine List.map_congr_left fun place hplace => ?_
    cases place with
    | nil => exact absurd hplace hnil
    | cons k path => rfl

theorem Node.subterms_eq (n : Node) : n.subterms = n :: n.children.flatMap Node.subterms := by
  have hattach : n.children.attach.flatMap (fun c => c.val.subterms) =
      n.children.flatMap Node.subterms := by
    rw [← List.flatMap_map (f := Subtype.val) (g := Node.subterms), List.attach_map_subtype_val]
  rw [Node.subterms]
  exact congrArg (n :: ·) hattach

/-- Whether the longest way down a tree is less than so many steps. -/
def Node.isWithin : Nat → Node → Bool
  | 0, _ => false
  | depth + 1, n => n.children.all (Node.isWithin depth)

/-- A node together with everything that is less than so many steps below it. -/
def Node.subtermsTo : Nat → Node → List Node
  | 0, _ => []
  | depth + 1, n => n :: n.children.flatMap (Node.subtermsTo depth)

/-- A bound on the depth of a tree bounds how far to look. -/
theorem Node.subterms_eq_of_isWithin {depth : Nat} {n : Node} (h : n.isWithin depth = true) :
    n.subterms = n.subtermsTo depth := by
  induction depth generalizing n with
  | zero => cases h
  | succ depth ih =>
    have hchildren : ∀ c ∈ n.children, c.subterms = c.subtermsTo depth := fun c hc =>
      ih (List.all_eq_true.mp h c hc)
    rw [Node.subterms_eq, Node.subtermsTo, List.flatMap_congr hchildren]

/-! ## What is picked -/

/-- **What is picked from the nodes belongs to some of the places, one to one and in order.** -/
theorem Visits.filterMap {β : Type} {look : List Nat → Option Node} {nodes : List Node}
    (h : Visits look nodes) (f : Node → Option β) :
    ∃ places : List (List Nat), places.Nodup ∧
      (∀ place, place ∈ places ↔ ∃ n, look place = some n ∧ (f n).isSome) ∧
      List.Forall₂ (fun place b => ∃ n, look place = some n ∧ f n = some b) places
        (nodes.filterMap f) := by
  obtain ⟨places, hnodup, hmem, hmap⟩ := h
  refine ⟨places.filter fun place => ((look place).bind f).isSome, hnodup.filter _, ?_, ?_⟩
  · intro place
    rw [List.mem_filter, hmem]
    cases look place <;> simp
  · clear hnodup hmem
    induction places generalizing nodes with
    | nil =>
      obtain rfl : nodes = [] := by simpa using hmap.symm
      exact .nil
    | cons place places ih =>
      cases nodes with
      | nil => cases hmap
      | cons n nodes =>
        obtain ⟨hlook, hmap⟩ := List.cons.inj hmap
        cases hpick : f n with
        | none => simpa [hlook, hpick] using ih hmap
        | some b => simpa [hlook, hpick] using ih hmap

end Scratchpad.TypeScript
