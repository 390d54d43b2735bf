import ApiContract.Proofs.Graph.Placing

/-!
# The names on cycles

A search within given names finds a way exactly when there is one (`reaches_iff`): it visits no name
twice, and a way that comes back to a name can be begun after its last visit there. The names on
cycles are never placed, and neither are those that a cycle passes through, so the search within the
names left over finds every cycle of the graph.

Main facts: `mem_cyclic_run` (the names that are given are those on cycles) and
`SameReferences.topological_eq` (the order in which references are listed does not count).
-/

namespace ApiContract.Graph

open Relation

/-- A reference of one of the names in `unseen`. -/
def Within (graph : Graph) (unseen : List String) (a b : String) : Prop :=
  a ∈ unseen ∧ b ∈ graph.references a

/-- The same names, each with the same references, in whatever order these are listed. -/
def SameReferences (graph other : Graph) : Prop :=
  List.Forall₂ (fun e f => e.1 = f.1 ∧ ∀ b, b ∈ e.2 ↔ b ∈ f.2) graph other

/-! ## The search -/

section
variable {graph : Graph}

theorem Within.of_erase {unseen : List String} {name a b : String}
    (h : graph.Within (unseen.erase name) a b) : graph.Within unseen a b :=
  ⟨List.mem_of_mem_erase h.1, h.2⟩

/-- A way that ends elsewhere leaves `name` out, or does so after its last visit there. -/
theorem way_without {unseen : List String} {name goal a : String} (hne : goal ≠ name)
    (h : ReflTransGen (graph.Within unseen) a goal) :
    ReflTransGen (graph.Within (unseen.erase name)) a goal ∨
      ∃ b ∈ graph.references name, ReflTransGen (graph.Within (unseen.erase name)) b goal := by
  induction h using ReflTransGen.head_induction_on with
  | refl => exact .inl .refl
  | @head a b hab _ ih =>
    rcases ih with hway | hway
    · by_cases ha : a = name
      · subst ha
        exact .inr ⟨b, hab.2, hway⟩
      · exact .inl (.head ⟨(List.mem_erase_of_ne ha).2 hab.1, hab.2⟩ hway)
    · exact .inr hway

/-- From a name that is not to be visited there is no way but to itself. -/
theorem eq_of_way {unseen : List String} {name goal : String} (hm : name ∉ unseen)
    (h : ReflTransGen (graph.Within unseen) name goal) : name = goal := by
  rcases h.cases_head with h | ⟨b, hstep, -⟩
  · exact h
  · exact absurd hstep.1 hm

/-- **The search finds a way exactly when there is one.** -/
theorem reaches_iff {goal : String} {unseen stack : List String} :
    graph.reaches goal unseen stack = true ↔
      ∃ a ∈ stack, ReflTransGen (graph.Within unseen) a goal := by
  fun_induction reaches graph goal unseen stack with
  | case1 => simp
  | case2 unseen stack => exact iff_of_true rfl ⟨goal, List.mem_cons_self, .refl⟩
  | case3 unseen name stack hne hm ih =>
    rw [ih]
    constructor
    · rintro ⟨a, ha, hway⟩
      have hway := ReflTransGen.mono (fun _ _ => Within.of_erase) _ _ hway
      rcases List.mem_append.1 ha with ha | ha
      · exact ⟨name, List.mem_cons_self, .head ⟨hm, ha⟩ hway⟩
      · exact ⟨a, List.mem_cons_of_mem _ ha, hway⟩
    · rintro ⟨a, ha, hway⟩
      rcases way_without (Ne.symm hne) hway with hway | ⟨b, hb, hway⟩
      · rcases List.mem_cons.1 ha with rfl | ha
        · rcases hway.cases_head with h | ⟨b, hstep, hrest⟩
          · exact absurd h hne
          · exact ⟨b, List.mem_append_left _ hstep.2, hrest⟩
        · exact ⟨a, List.mem_append_right _ ha, hway⟩
      · exact ⟨b, List.mem_append_left _ hb, hway⟩
  | case4 unseen name stack hne hm ih =>
    rw [ih]
    constructor
    · rintro ⟨a, ha, hway⟩
      exact ⟨a, List.mem_cons_of_mem _ ha, hway⟩
    · rintro ⟨a, ha, hway⟩
      rcases List.mem_cons.1 ha with rfl | ha
      · exact absurd (eq_of_way hm hway) hne
      · exact ⟨a, ha, hway⟩

theorem mem_cyclic {names : List String} {a : String} :
    a ∈ graph.cyclic names ↔ a ∈ names ∧ TransGen (graph.Within names) a a := by
  rw [cyclic, List.mem_filter, reaches_iff, TransGen.head'_iff]
  constructor
  · rintro ⟨ha, b, hb, hway⟩
    exact ⟨ha, b, ⟨ha, hb⟩, hway⟩
  · rintro ⟨ha, b, ⟨-, hb⟩, hway⟩
    exact ⟨ha, b, hb, hway⟩

end

/-! ## Cycles among the names left over -/

/-- Whatever reaches a placed name has an earlier place. -/
theorem Follows.exists_lt_of_transGen {graph : Graph} {order : List String}
    (h : graph.Follows [] order) {a b : String} (hab : TransGen graph.Edge a b) {j : Nat}
    (hb : order[j]? = some b) : ∃ i < j, order[i]? = some a := by
  induction hab generalizing j with
  | single hab => exact h.exists_lt hab hb
  | tail _ hbc ih =>
    obtain ⟨k, hk, hget⟩ := h.exists_lt hbc hb
    obtain ⟨i, hi, hget⟩ := ih hget
    exact ⟨i, Nat.lt_trans hi hk, hget⟩

section
variable {graph : Graph} (hn : graph.names.Nodup)
include hn

/-- A way within listed names to a listed name runs along edges. -/
theorem edges_of_within {names : List String} (hs : ∀ a ∈ names, a ∈ graph.names) {a b : String}
    (hb : b ∈ graph.names) (h : TransGen (graph.Within names) a b) : TransGen graph.Edge a b := by
  induction h using TransGen.head_induction_on with
  | single hab => exact .single ((edge_iff hn).2 ⟨hab.2, hb⟩)
  | @head a c hac hcb ih =>
    obtain ⟨d, hcd, -⟩ := TransGen.head'_iff.1 hcb
    exact .head ((edge_iff hn).2 ⟨hac.2, hs c hcd.1⟩) ih

/-- No name on a cycle is placed. -/
theorem mem_left_of_onCycle {a : String} (h : graph.OnCycle a) : a ∈ graph.run.2 := by
  obtain ⟨hperm, hfollows, -⟩ := run_spec hn
  have hnodup : graph.run.1.Nodup := (hperm.nodup_iff.2 hn).of_append_left
  have hlisted : a ∈ graph.names := by
    obtain ⟨b, hab, -⟩ := TransGen.head'_iff.1 h
    exact hab.left
  refine (List.mem_append.1 (hperm.symm.subset hlisted)).resolve_left fun hm => ?_
  obtain ⟨j, hj⟩ := List.mem_iff_getElem?.1 hm
  obtain ⟨i, hij, hi⟩ := hfollows.exists_lt_of_transGen h hj
  have : i = j := (List.getElem?_inj (List.getElem?_eq_some_iff.1 hi).1 hnodup).1 (hi.trans hj.symm)
  omega

/-- The rest of a cycle runs within the names left over, as every name on the way is on it. -/
theorem within_of_cycle {a b : String} (hab : TransGen graph.Edge a b)
    (hba : ReflTransGen graph.Edge b a) : TransGen (graph.Within graph.run.2) a b := by
  induction hab with
  | single hab =>
    exact .single ⟨mem_left_of_onCycle hn (.head' hab hba), ((edge_iff hn).1 hab).1⟩
  | tail hac hcb ih =>
    have hca := hba.head hcb
    have hcycle := TransGen.trans_right hca hac
    exact (ih hca).tail ⟨mem_left_of_onCycle hn hcycle, ((edge_iff hn).1 hcb).1⟩

/-- **The names that the search among those left over finds are those on cycles.** -/
theorem mem_cyclic_run {a : String} : a ∈ graph.cyclic graph.run.2 ↔ graph.OnCycle a := by
  obtain ⟨hperm, -⟩ := run_spec hn
  have hlisted : ∀ a ∈ graph.run.2, a ∈ graph.names := fun a ha =>
    hperm.subset (List.mem_append_right _ ha)
  rw [mem_cyclic]
  constructor
  · rintro ⟨ha, hway⟩
    exact edges_of_within hn hlisted (hlisted a ha) hway
  · intro h
    exact ⟨mem_left_of_onCycle hn h, within_of_cycle hn h .refl⟩

end

/-! ## Listing references differently -/

section
variable {graph other : Graph} (h : graph.SameReferences other)
include h

theorem SameReferences.names_eq : other.names = graph.names := by
  induction h with
  | nil => rfl
  | cons hef _ ih => simp only [names, List.map_cons] at ih ⊢; rw [ih, hef.1]

theorem SameReferences.degree_eq (name : String) : other.degree name = graph.degree name := by
  induction h with
  | nil => rfl
  | cons hef _ ih => simp only [degree, List.countP_cons] at ih ⊢; rw [ih]; simp [hef.2 name]

theorem SameReferences.mem_references {a b : String} :
    b ∈ other.references a ↔ b ∈ graph.references a := by
  induction h with
  | nil => rfl
  | @cons e f _ _ hef _ ih =>
    obtain ⟨name, listed⟩ := e
    obtain ⟨_, others⟩ := f
    obtain ⟨rfl, hmem⟩ := hef
    by_cases ha : a = name
    · subst ha
      simpa [references] using (hmem b).symm
    · have hk : (a == name) = false := by simpa using ha
      simpa [references, List.lookup_cons, hk] using ih

theorem SameReferences.targets_eq (name : String) : other.targets name = graph.targets name :=
  Text.distinct_congr fun _ => h.mem_references

theorem SameReferences.place_eq (stack : List String) (waiting : Waiting) :
    other.place stack waiting = graph.place stack waiting := by
  fun_induction place graph stack waiting with
  | case1 => simp [place]
  | case2 _ name stack _ placed left hrun =>
    rename_i ih
    rw [place, h.targets_eq, ih, hrun]

theorem SameReferences.run_eq : other.run = graph.run := by
  simp only [run, h.names_eq, h.degree_eq, h.place_eq]

theorem SameReferences.cyclic_eq (names : List String) :
    other.cyclic names = graph.cyclic names := by
  have hwithin : ∀ unseen, other.Within unseen = graph.Within unseen := fun unseen => by
    funext a b
    simp [Within, h.mem_references]
  refine List.filter_congr fun name _ => Bool.eq_iff_iff.2 ?_
  rw [reaches_iff, reaches_iff, hwithin]
  simp only [h.mem_references]

/-- The result depends on which references there are, not on the order in which they are listed. -/
theorem SameReferences.topological_eq : other.topological = graph.topological := by
  simp only [topological, h.run_eq, h.cyclic_eq]

end

/-- **The error for a graph with cycles** holds exactly the names that reach themselves, each once
and in order, and it is the same in whatever order references are listed. -/
theorem topological_cycle {graph : Graph} (hn : graph.names.Nodup) (hc : ¬ graph.Acyclic) :
    ∃ names, graph.topological = .error names ∧ names.Pairwise (· < ·) ∧
      (∀ a, a ∈ names ↔ graph.OnCycle a) ∧
      ∀ other, graph.SameReferences other → other.topological = .error names := by
  obtain ⟨hperm, -⟩ := run_spec hn
  have hnodup : (graph.cyclic graph.run.2).Nodup :=
    ((hperm.nodup_iff.2 hn).of_append_right).filter _
  have herror : graph.topological = .error (Text.sorted (graph.cyclic graph.run.2)) := by
    have hleft : graph.run.2 ≠ [] := fun hleft => by
      obtain ⟨a, ha⟩ := Classical.not_forall.1 hc
      have := mem_left_of_onCycle hn (Classical.not_not.1 ha)
      simp [hleft] at this
    unfold topological
    split
    · next hrun => exact absurd (congrArg Prod.snd hrun) hleft
    · next hrun => rw [hrun]
  refine ⟨_, herror, Text.pairwise_lt_sorted hnodup, fun a => ?_, fun other hsame => ?_⟩
  · rw [Text.mem_sorted, mem_cyclic_run hn]
  · rw [hsame.topological_eq, herror]

/-- Two cycles with a name that leads to the first, a link between them and a name behind them. -/
def linkedCycles : Graph :=
  [("Root", ["A"]), ("A", ["B"]), ("B", ["A", "Link"]), ("Link", ["Y"]), ("Y", ["Z"]),
    ("Z", ["Y", "Leaf"]), ("Leaf", [])]

theorem topological_cycle_linked :
    linkedCycles.names.Nodup ∧ ¬ linkedCycles.Acyclic ∧
      (∀ a, a ∈ ["A", "B", "Y", "Z"] ↔ linkedCycles.OnCycle a) ∧
      topological [("Root", ["A"]), ("A", ["B"]), ("B", ["Link", "A"]), ("Link", ["Y"]),
        ("Y", ["Z"]), ("Z", ["Leaf", "Y"]), ("Leaf", [])] = .error ["A", "B", "Y", "Z"] := by
  have hn : linkedCycles.names.Nodup := by decide
  have hab : linkedCycles.Edge "A" "B" := ⟨⟨("A", ["B"]), by decide, rfl, by decide⟩, by decide⟩
  have hba : linkedCycles.Edge "B" "A" :=
    ⟨⟨("B", ["A", "Link"]), by decide, rfl, by decide⟩, by decide⟩
  have hc : ¬ linkedCycles.Acyclic := fun hac => hac "A" (.tail (.single hab) hba)
  obtain ⟨names, herror, -, hmem, hother⟩ := topological_cycle hn hc
  have hnames : linkedCycles.topological = .error ["A", "B", "Y", "Z"] := by
    unfold linkedCycles
    cbv
  obtain rfl : names = ["A", "B", "Y", "Z"] := by simpa using herror.symm.trans hnames
  exact ⟨hn, hc, hmem, hother _ (by simp [SameReferences, linkedCycles, or_comm])⟩

end ApiContract.Graph
