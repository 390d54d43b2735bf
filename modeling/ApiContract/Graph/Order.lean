import ApiContract.Graph

/-!
# Orders of a graph

`topological` lists the names of a graph so that every name stands before the names that it refers
to. It keeps a stack of the names to which no waiting name refers: at first in the order of the
graph, the last on top; the top one is placed, and the names that it alone still held back go onto
the stack, in the order of code points.

When names are left waiting, no order exists. Then `cyclic` names those of them that lie on a cycle:
the ones that reach themselves.

Main facts: `length_release` (placing a name loses no other) by which the run ends.
-/

namespace ApiContract.Graph

/-- The names that wait, each with the number of unplaced names that refer to it. -/
abbrev Waiting := List (String × Nat)

/-- The number of listed names that refer to a name. -/
def degree (graph : Graph) (name : String) : Nat :=
  graph.countP fun (_, targets) => name ∈ targets

/-- One reference to a name is gone. Gives whether it was the last, and who waits then. -/
def relieve (name : String) : Waiting → Bool × Waiting
  | [] => (false, [])
  | (n, k) :: rest =>
    if n = name then if k ≤ 1 then (true, rest) else (false, (n, k - 1) :: rest)
    else ((relieve name rest).1, (n, k) :: (relieve name rest).2)

/-- The references of a placed name are gone. Names that wait no more go onto the stack. -/
def release (stack : List String) (waiting : Waiting) : List String → List String × Waiting
  | [] => (stack, waiting)
  | name :: names =>
    release (if (relieve name waiting).1 then name :: stack else stack) (relieve name waiting).2
      names

theorem length_relieve (name : String) (waiting : Waiting) :
    (relieve name waiting).2.length + (if (relieve name waiting).1 then 1 else 0) =
      waiting.length := by
  induction waiting with
  | nil => rfl
  | cons entry rest ih =>
    obtain ⟨n, k⟩ := entry
    simp only [relieve]
    split
    · split <;> simp
    · simp only [List.length_cons]; omega

/-- Placing a name loses no other: each one is on the stack or waits. -/
theorem length_release (stack : List String) (waiting : Waiting) (names : List String) :
    (release stack waiting names).1.length + (release stack waiting names).2.length =
      stack.length + waiting.length := by
  induction names generalizing stack waiting with
  | nil => rfl
  | cons name names ih =>
    rw [release, ih]
    have hlength := length_relieve name waiting
    split
    · next hlast =>
      rw [if_pos hlast] at hlength
      rw [List.length_cons]
      omega
    · next hlast =>
      rw [if_neg hlast] at hlength
      omega

/-- Places the names on the stack, one after the other, and those that they release. Gives the
placed names and those that still wait. -/
def place (graph : Graph) (stack : List String) (waiting : Waiting) : List String × Waiting :=
  match stack with
  | [] => ([], waiting)
  | name :: stack =>
    let next := release stack waiting (graph.targets name)
    let (placed, left) := place graph next.1 next.2
    (name :: placed, left)
termination_by stack.length + waiting.length
decreasing_by
  have := length_release stack waiting (graph.targets name)
  simp only [List.length_cons]
  omega

/-- The placed names in order, and the names that cannot be placed. -/
def run (graph : Graph) : List String × List String :=
  let counted := graph.names.map fun name => (name, graph.degree name)
  let free := (counted.filter fun entry => entry.2 == 0).map Prod.fst
  let (placed, left) := place graph free.reverse (counted.filter fun entry => entry.2 != 0)
  (placed, left.map Prod.fst)

/-- Whether a search from the names on the stack comes to `goal`. From a name of `unseen` it goes on
to all names that this refers to, as they are listed, but only once; it passes over other names. -/
def reaches (graph : Graph) (goal : String) (unseen stack : List String) : Bool :=
  match stack with
  | [] => false
  | name :: stack =>
    if name = goal then true
    else if name ∈ unseen then
      reaches graph goal (unseen.erase name) (graph.references name ++ stack)
    else reaches graph goal unseen stack
termination_by (unseen.length, stack.length)
decreasing_by
  · rename_i h
    have := List.length_erase_of_mem h
    have := List.length_pos_of_mem h
    exact Prod.Lex.left _ _ (by omega)
  · exact Prod.Lex.right _ (by simp)

/-- The given names that reach themselves through given names. -/
def cyclic (graph : Graph) (names : List String) : List String :=
  names.filter fun name => reaches graph name names (graph.references name)

/-- The names of a graph, every name before those that it refers to; or, if there is no such order,
the names on cycles. -/
def topological (graph : Graph) : Except (List String) (List String) :=
  match run graph with
  | (placed, []) => .ok placed
  | (_, left) => .error (Text.sorted (cyclic graph left))

/-- The names of a graph, every name after those that it refers to. -/
def emission (graph : Graph) : Except (List String) (List String) :=
  (topological graph).map List.reverse

example : topological [("A", ["B"]), ("B", [])] = .ok ["A", "B"] := by cbv
example : topological [("A", ["A", "B"]), ("B", [])] = .error ["A"] := by cbv
example : topological [("A", ["C", "B"]), ("B", []), ("C", []), ("D", [])] =
    .ok ["D", "A", "C", "B"] := by cbv

end ApiContract.Graph
