import ApiContract.Proofs.Graph.Placing

/-!
# When a graph has an order, and which one is given

The names that `topological` gives are arranged along the edges, and `emission` gives them
backwards. Both succeed exactly when there is no cycle: an order of all names leaves no room for a
cycle, and names that a run leaves over each have a predecessor among them, which is impossible
without one.

Main facts: `arranges_topological` and `arranges_emission` (the order), `topological_iff_acyclic`.
-/

namespace ApiContract.Graph

section
variable {graph : Graph}

theorem topological_eq_ok {order : List String} (h : graph.topological = .ok order) :
    graph.run = (order, []) := by
  unfold topological at h
  split at h
  · next placed hrun => cases h; exact hrun
  · cases h

theorem topological_of_run {order : List String} (h : graph.run = (order, [])) :
    graph.topological = .ok order := by
  simp [topological, h]

theorem emission_eq_ok {order : List String} :
    graph.emission = .ok order ↔ graph.topological = .ok order.reverse := by
  cases h : graph.topological <;> simp [emission, h, Except.map, List.reverse_eq_iff]

variable (hn : graph.names.Nodup)
include hn

theorem arranges_topological {order : List String} (h : graph.topological = .ok order) :
    graph.Arranges graph.Edge order := by
  obtain ⟨hperm, hfollows, -⟩ := run_spec hn
  rw [topological_eq_ok h] at hperm hfollows
  rw [List.append_nil] at hperm
  have hnodup : order.Nodup := hperm.nodup_iff.2 hn
  refine ⟨hnodup, fun a => hperm.mem_iff, fun a b hab i j hi hj => ?_⟩
  obtain ⟨k, hk, hget⟩ := hfollows.exists_lt hab hj
  have hki : k = i := (List.getElem?_inj (List.getElem?_eq_some_iff.1 hget).1 hnodup).1
    (hget.trans hi.symm)
  exact hki ▸ hk

theorem arranges_emission {order : List String} (h : graph.emission = .ok order) :
    graph.Arranges (fun a b => graph.Edge b a) order := by
  have := (arranges_topological hn (emission_eq_ok.1 h)).reverse
  rwa [List.reverse_reverse] at this

/-- A run in a graph without cycles leaves nothing over. -/
theorem run_of_acyclic (hac : graph.Acyclic) : graph.run.2 = [] := by
  obtain ⟨-, -, hleft⟩ := run_spec hn
  apply Classical.byContradiction
  intro hne
  obtain ⟨a, ha, hno⟩ := exists_no_pred hac hne
  obtain ⟨b, hb, hba⟩ := hleft a ha
  exact hno b hb hba

theorem topological_iff_acyclic : (∃ order, graph.topological = .ok order) ↔ graph.Acyclic := by
  constructor
  · rintro ⟨order, h⟩
    exact (arranges_topological hn h).acyclic
  · intro hac
    exact ⟨graph.run.1, topological_of_run (Prod.ext rfl (run_of_acyclic hn hac))⟩

end

/-- **The order of a graph**: it is given exactly when no name reaches itself; it holds the listed
names, each once, and every name stands before the listed ones that it refers to. The order of
emission is given for the same graphs; it is this order backwards, so every name stands after those
that it refers to. -/
theorem topological_order {graph : Graph} (hn : graph.names.Nodup) :
    ((∃ order, graph.topological = .ok order) ↔ graph.Acyclic) ∧
    (∀ order, graph.topological = .ok order → graph.Arranges graph.Edge order) ∧
    (∀ order, graph.emission = .ok order ↔ graph.topological = .ok order.reverse) ∧
    ∀ order, graph.emission = .ok order → graph.Arranges (fun a b => graph.Edge b a) order :=
  ⟨topological_iff_acyclic hn, fun _ => arranges_topological hn, fun _ => emission_eq_ok,
    fun _ => arranges_emission hn⟩

/-- A dependency that two names share, and a reference to a name that is not listed. -/
def sharedDependency : Graph :=
  [("C", []), ("A", ["B", "C"]), ("B", ["C", "Gone"])]

theorem topological_order_shared :
    sharedDependency.names.Nodup ∧ sharedDependency.Acyclic ∧
      sharedDependency.Arranges (fun a b => sharedDependency.Edge b a) ["C", "B", "A"] := by
  have hn : sharedDependency.names.Nodup := by decide
  have horder : sharedDependency.topological = .ok ["A", "B", "C"] := by
    unfold sharedDependency
    cbv
  obtain ⟨hiff, -, hback, hemission⟩ := topological_order hn
  exact ⟨hn, hiff.1 ⟨_, horder⟩, hemission _ ((hback _).2 horder)⟩

end ApiContract.Graph
