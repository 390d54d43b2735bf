import ApiContract.Schema
import ApiContract.Text.Sorted

/-!
# Graphs of names

A `Graph` lists names, each with the names that it refers to. A name may refer to names that are not
listed; these are `dangling`.

Main fact: `mem_dangling`, which names dangle.
-/

namespace ApiContract

/-- Names in order, each with the names that it refers to. -/
abbrev Graph := List (String × List String)

namespace Graph

/-- The listed names. -/
def names (graph : Graph) : List String :=
  graph.map Prod.fst

/-- The names that a name refers to, as listed; a name that is not listed refers to none. -/
def references (graph : Graph) (name : String) : List String :=
  (graph.lookup name).getD []

/-- The names that a name refers to, each once and in order. -/
def targets (graph : Graph) (name : String) : List String :=
  Text.distinct (graph.references name)

/-- The graph of schemas. -/
def ofSchemas (schemas : List (String × Schema)) : Graph :=
  schemas.map fun (name, schema) => (name, schema.dependencies)

/-- The names that are referred to and not listed, in order. -/
def dangling (graph : Graph) : List String :=
  Text.distinct ((graph.flatMap Prod.snd).filter fun name => name ∉ graph.names)

theorem mem_dangling {graph : Graph} {name : String} :
    name ∈ graph.dangling ↔ (∃ entry ∈ graph, name ∈ entry.2) ∧ name ∉ graph.names := by
  simp [dangling]

@[simp] theorem names_ofSchemas (schemas : List (String × Schema)) :
    (ofSchemas schemas).names = schemas.map Prod.fst := by
  simp [names, ofSchemas]

end Graph

end ApiContract
