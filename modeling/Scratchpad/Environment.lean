/-!
# Environments

The environment of a program binds names to values, each name once. Bindings are kept in the order of
their names, so that equal environments are written alike.

## Main definitions

* `Environment.get?`, `Environment.insert`: the value of a name, and binding a name anew.
* `Environment.extend`: binding many names, the last binding of each one counts.

## Main statements

* `Environment.get?_insert`: binding a name changes its value alone.
-/

namespace Scratchpad

/-- What names are bound to. -/
structure Environment where
  /-- The bindings, in the order of the names. -/
  bindings : List (String × String)
deriving DecidableEq, Inhabited, Repr

namespace Environment

/-- The environment in which no name is bound. -/
def empty : Environment := ⟨[]⟩

/-- Bindings with one more, which takes the place of an earlier one of the same name. -/
def insertBinding (name value : String) : List (String × String) → List (String × String)
  | [] => [(name, value)]
  | (n, v) :: rest =>
    if name = n then (name, value) :: rest
    else if name < n then (name, value) :: (n, v) :: rest
    else (n, v) :: insertBinding name value rest

/-- Binds a name. -/
def insert (e : Environment) (name value : String) : Environment :=
  ⟨insertBinding name value e.bindings⟩

/-- The value that a name is bound to. -/
def get? (e : Environment) (name : String) : Option String := e.bindings.lookup name

/-- Binds names one after another. -/
def extend (e : Environment) (bindings : List (String × String)) : Environment :=
  bindings.foldl (fun e (name, value) => e.insert name value) e

/-- The environment of a list of bindings. -/
def ofList (bindings : List (String × String)) : Environment := empty.extend bindings

@[simp] theorem get?_empty (name : String) : empty.get? name = none := rfl

theorem lookup_cons_pair (other n v : String) (bs : List (String × String)) :
    ((n, v) :: bs).lookup other = if other = n then some v else bs.lookup other := by
  by_cases h : other = n
  · simp [h]
  · simp [List.lookup_cons, beq_false_of_ne h, h]

theorem lookup_insertBinding (name value other : String) (bs : List (String × String)) :
    (insertBinding name value bs).lookup other =
      if other = name then some value else bs.lookup other := by
  fun_induction insertBinding name value bs with
  | case1 => simp
  | case2 v rest => simp only [lookup_cons_pair]; split <;> rfl
  | case3 n v rest hn hlt => simp only [lookup_cons_pair]
  | case4 n v rest hn hlt ih =>
    simp only [lookup_cons_pair, ih]
    by_cases h : other = n
    · have hne : ¬ n = name := fun h' => hn h'.symm
      simp [h, hne]
    · simp [h]

/-- Binding a name changes its value alone. -/
@[simp] theorem get?_insert (e : Environment) (name value other : String) :
    (e.insert name value).get? other = if other = name then some value else e.get? other :=
  lookup_insertBinding name value other e.bindings

end Environment

end Scratchpad
