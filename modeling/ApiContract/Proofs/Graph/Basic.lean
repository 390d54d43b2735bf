import ApiContract.Graph
import Mathlib.Computability.Primrec.List
import Mathlib.Data.Fintype.EquivFin
import Mathlib.Data.Fintype.Sets
import Mathlib.Data.List.Permutation
import Mathlib.Logic.Relation
import Mathlib.Order.WellFounded

/-!
# Edges and cycles

The edges of a graph join listed names only; references to other names are no edges. A name lies on
a cycle when it reaches itself along one edge or more, and `Arranges` says what an order of the
names is.

Main facts: `edge_iff` (an edge read off `references`), `acyclic_of_lt` (edges along which a number
grows form no cycle), `exists_no_pred` (without cycles, not every one of finitely many names has a
predecessor among them) and `Arranges.reverse` (an order read backwards).
-/

namespace ApiContract.Graph

open Relation

/-- `a` is listed and refers to `b`, which is listed as well. -/
def Edge (graph : Graph) (a b : String) : Prop :=
  (∃ entry ∈ graph, entry.1 = a ∧ b ∈ entry.2) ∧ b ∈ graph.names

/-- `a` reaches itself along one edge or more. -/
def OnCycle (graph : Graph) (a : String) : Prop :=
  TransGen graph.Edge a a

/-- No name lies on a cycle. -/
def Acyclic (graph : Graph) : Prop :=
  ∀ a, ¬ graph.OnCycle a

/-- `order` holds the listed names, each once, and `a` stands at an earlier place than `b` whenever
`before a b`. -/
structure Arranges (graph : Graph) (before : String → String → Prop) (order : List String) :
    Prop where
  nodup : order.Nodup
  mem : ∀ a, a ∈ order ↔ a ∈ graph.names
  lt : ∀ a b, before a b → ∀ i j : Nat, order[i]? = some a → order[j]? = some b → i < j

/-! ## Entries -/

theorem mem_names_of_mem {graph : Graph} {entry : String × List String} (h : entry ∈ graph) :
    entry.1 ∈ graph.names :=
  List.mem_map_of_mem h

/-- With distinct names, what a name refers to is what its entry lists. -/
theorem references_of_mem {graph : Graph} (hn : graph.names.Nodup)
    {entry : String × List String} (h : entry ∈ graph) : graph.references entry.1 = entry.2 := by
  induction graph with
  | nil => simp at h
  | cons first rest ih =>
    obtain ⟨name, listed⟩ := first
    obtain ⟨hne, hrest⟩ := List.nodup_cons.1 (show (name :: names rest).Nodup from hn)
    rcases List.mem_cons.1 h with rfl | h
    · simp [references]
    · have hk : (entry.1 == name) = false := by
        simpa using fun he : entry.1 = name => hne (he ▸ mem_names_of_mem h)
      simpa [references, List.lookup_cons, hk] using ih hrest h

theorem mem_references_iff {graph : Graph} (hn : graph.names.Nodup) {a b : String} :
    b ∈ graph.references a ↔ ∃ entry ∈ graph, entry.1 = a ∧ b ∈ entry.2 := by
  constructor
  · intro h
    cases hl : List.lookup a graph with
    | none => simp [references, hl] at h
    | some listed =>
      obtain ⟨front, back, hg, -⟩ := List.lookup_eq_some_iff.1 hl
      have hm : (a, listed) ∈ graph := by rw [hg]; simp
      exact ⟨_, hm, rfl, by simpa [references, hl] using h⟩
  · rintro ⟨entry, he, rfl, hb⟩
    rw [references_of_mem hn he]
    exact hb

theorem edge_iff {graph : Graph} (hn : graph.names.Nodup) {a b : String} :
    graph.Edge a b ↔ b ∈ graph.references a ∧ b ∈ graph.names := by
  rw [mem_references_iff hn, Edge]

theorem mem_targets {graph : Graph} {a b : String} :
    b ∈ graph.targets a ↔ b ∈ graph.references a :=
  Text.mem_distinct

theorem Edge.left {graph : Graph} {a b : String} (h : graph.Edge a b) : a ∈ graph.names := by
  obtain ⟨⟨entry, he, rfl, -⟩, -⟩ := h
  exact mem_names_of_mem he

theorem Edge.right {graph : Graph} {a b : String} (h : graph.Edge a b) : b ∈ graph.names :=
  h.2

/-! ## Cycles -/

/-- Where a number grows along every edge it grows along every way, so no way is closed. -/
theorem acyclic_of_lt {graph : Graph} {rank : String → Nat}
    (h : ∀ a b, graph.Edge a b → rank a < rank b) : graph.Acyclic := by
  have grows : ∀ a b, TransGen graph.Edge a b → rank a < rank b := by
    intro a b hab
    induction hab with
    | single hab => exact h _ _ hab
    | tail _ hbc ih => exact Nat.lt_trans ih (h _ _ hbc)
  exact fun a ha => Nat.lt_irrefl _ (grows a a ha)

/-- Without cycles, some one of finitely many names has no predecessor among them. -/
theorem exists_no_pred {graph : Graph} (hac : graph.Acyclic) {names : List String}
    (hne : names ≠ []) : ∃ a ∈ names, ∀ b ∈ names, ¬ graph.Edge b a := by
  let r : {a // a ∈ names} → {a // a ∈ names} → Prop := fun a b => TransGen graph.Edge a.1 b.1
  have : IsTrans _ r := ⟨fun _ _ _ hab hbc => TransGen.trans hab hbc⟩
  have : Std.Irrefl r := ⟨fun a h => hac a.1 h⟩
  obtain ⟨first, hfirst⟩ := List.exists_mem_of_ne_nil _ hne
  obtain ⟨least, -, hmin⟩ :=
    (Finite.wellFounded_of_trans_of_irrefl r).has_min Set.univ ⟨⟨first, hfirst⟩, trivial⟩
  exact ⟨least.1, least.2, fun b hb he => hmin ⟨b, hb⟩ trivial (.single he)⟩

/-! ## Orders -/

namespace Arranges

variable {graph : Graph} {before : String → String → Prop} {order : List String}

/-- Read backwards, an order puts everything the other way round. -/
theorem reverse (h : graph.Arranges before order) :
    graph.Arranges (fun a b => before b a) order.reverse := by
  refine ⟨List.nodup_reverse.2 h.nodup, fun a => by rw [List.mem_reverse, h.mem],
    fun a b hab i j hi hj => ?_⟩
  have hil : i < order.length := by
    simpa using (List.getElem?_eq_some_iff.1 hi).1
  have hjl : j < order.length := by
    simpa using (List.getElem?_eq_some_iff.1 hj).1
  rw [List.getElem?_reverse hil] at hi
  rw [List.getElem?_reverse hjl] at hj
  have := h.lt b a hab _ _ hj hi
  omega

/-- What must stand before a name of the order has an earlier place in it. -/
theorem exists_lt (h : graph.Arranges before order) {a b : String} (hab : before a b)
    (ha : a ∈ graph.names) {j : Nat} (hb : order[j]? = some b) : ∃ i < j, order[i]? = some a := by
  obtain ⟨i, hi⟩ := List.mem_iff_getElem?.1 ((h.mem a).2 ha)
  exact ⟨i, h.lt a b hab i j hi hb, hi⟩

/-- Where all edges can be arranged, there is no cycle. -/
theorem acyclic (h : graph.Arranges graph.Edge order) : graph.Acyclic := by
  refine @acyclic_of_lt graph order.idxOf fun a b hab => ?_
  exact h.lt a b hab _ _ (List.getElem?_idxOf ((h.mem a).2 hab.left))
    (List.getElem?_idxOf ((h.mem b).2 hab.right))

end Arranges

end ApiContract.Graph
