import ApiContract.Graph.Order
import ApiContract.Proofs.Graph.Basic

/-!
# The run that places the names of a graph

`Inv graph done stack waiting`: the names in `done` are placed; they, the names on the stack and the
waiting ones are the listed names, each once; whoever refers to a name on the stack is placed; and a
waiting name stands with the number of unplaced names that refer to it, which is not zero. It holds
at the start (`Inv.start`), placing the name on top of the stack keeps it (`Inv.step`), and so does
a whole run (`Inv.placed`).

Main facts: `run_spec` (what a run places follows the graph, and each name that it leaves is
referred to by one that it leaves) and `Follows.mem_take` (whoever refers to a placed name is placed
before it).
-/

namespace ApiContract.Graph

/-- The number of entries of unplaced names that list `name`. -/
def pending (graph : Graph) (done : List String) (name : String) : Nat :=
  graph.countP fun entry => decide (entry.1 ∉ done ∧ name ∈ entry.2)

/-- The invariant of the run (module doc). -/
structure Inv (graph : Graph) (done stack : List String) (waiting : Waiting) : Prop where
  perm : (done ++ (stack ++ waiting.map Prod.fst)).Perm graph.names
  free : ∀ name ∈ stack, ∀ entry ∈ graph, name ∈ entry.2 → entry.1 ∈ done
  counts : ∀ w ∈ waiting, w.2 = graph.pending done w.1 ∧ 0 < w.2

/-- Whoever refers to a name of `order` is in `done` or stands before it. -/
def Follows (graph : Graph) : List String → List String → Prop
  | _, [] => True
  | done, name :: rest =>
    (∀ entry ∈ graph, name ∈ entry.2 → entry.1 ∈ done) ∧ graph.Follows (done ++ [name]) rest

/-! ## Releasing names -/

theorem perm_relieve (name : String) (waiting : Waiting) :
    ((if (relieve name waiting).1 then [name] else []) ++
      (relieve name waiting).2.map Prod.fst).Perm (waiting.map Prod.fst) := by
  induction waiting with
  | nil => exact .refl _
  | cons w rest ih =>
    obtain ⟨n, k⟩ := w
    by_cases hn : n = name
    · subst hn
      by_cases hk : k ≤ 1 <;> simp [relieve, hk]
    · simp only [relieve, if_neg hn, List.map_cons]
      exact List.perm_middle.trans (ih.cons n)

/-- A name that still waits lost one reference if it is `name`, and none otherwise. -/
theorem mem_relieve {name : String} {waiting : Waiting} (hw : (waiting.map Prod.fst).Nodup)
    {n : String} {k : Nat} (h : (n, k) ∈ (relieve name waiting).2) :
    if n = name then 0 < k ∧ (n, k + 1) ∈ waiting else (n, k) ∈ waiting := by
  induction waiting with
  | nil => simp [relieve] at h
  | cons w rest ih =>
    obtain ⟨m, j⟩ := w
    obtain ⟨hm, hrest⟩ := List.nodup_cons.1 (show (m :: rest.map Prod.fst).Nodup from hw)
    have hne : ∀ {k}, (n, k) ∈ rest → n ≠ m := fun hk e =>
      hm (e ▸ List.mem_map_of_mem (f := Prod.fst) hk)
    by_cases hmn : m = name
    · subst hmn
      by_cases hj : j ≤ 1
      · simp only [relieve, if_true, if_pos hj] at h
        rw [if_neg (hne h)]
        exact List.mem_cons_of_mem _ h
      · simp only [relieve, if_true, if_neg hj, List.mem_cons, Prod.mk.injEq] at h
        rcases h with ⟨rfl, rfl⟩ | h
        · have hj' : j - 1 + 1 = j := by omega
          simp only [if_true, hj', List.mem_cons_self, and_true]
          omega
        · rw [if_neg (hne h)]
          exact List.mem_cons_of_mem _ h
    · simp only [relieve, if_neg hmn, List.mem_cons, Prod.mk.injEq] at h
      rcases h with ⟨rfl, rfl⟩ | h
      · rw [if_neg hmn]
        exact List.mem_cons_self
      · have := ih hrest h
        split
        · next e => rw [if_pos e] at this; exact ⟨this.1, List.mem_cons_of_mem _ this.2⟩
        · next e => rw [if_neg e] at this; exact List.mem_cons_of_mem _ this

/-- A name that waits no more had one reference left. -/
theorem mem_of_relieve {name : String} {waiting : Waiting} (h : (relieve name waiting).1 = true) :
    ∃ k ≤ 1, (name, k) ∈ waiting := by
  induction waiting with
  | nil => simp [relieve] at h
  | cons w rest ih =>
    obtain ⟨m, j⟩ := w
    by_cases hmn : m = name
    · subst hmn
      by_cases hj : j ≤ 1
      · exact ⟨j, hj, List.mem_cons_self⟩
      · simp [relieve, hj] at h
    · simp only [relieve, if_neg hmn] at h
      obtain ⟨k, hk, hm⟩ := ih h
      exact ⟨k, hk, List.mem_cons_of_mem _ hm⟩

theorem nodup_relieve {waiting : Waiting} (hw : (waiting.map Prod.fst).Nodup) (name : String) :
    ((relieve name waiting).2.map Prod.fst).Nodup :=
  ((perm_relieve name waiting).nodup_iff.2 hw).of_append_right

theorem perm_release (stack : List String) (waiting : Waiting) (names : List String) :
    ((release stack waiting names).1 ++ (release stack waiting names).2.map Prod.fst).Perm
      (stack ++ waiting.map Prod.fst) := by
  induction names generalizing stack waiting with
  | nil => exact .refl _
  | cons name names ih =>
    refine (ih _ _).trans (.trans ?_ ((perm_relieve name waiting).append_left stack))
    split
    · exact List.perm_middle.symm
    · exact .refl _

/-- A name that still waits lost one reference if it is among `names`, and none otherwise. -/
theorem mem_release_waiting {stack : List String} {waiting : Waiting} {names : List String}
    (hw : (waiting.map Prod.fst).Nodup) (hn : names.Nodup) {n : String} {k : Nat}
    (h : (n, k) ∈ (release stack waiting names).2) :
    if n ∈ names then 0 < k ∧ (n, k + 1) ∈ waiting else (n, k) ∈ waiting := by
  induction names generalizing stack waiting with
  | nil => simpa [release] using h
  | cons name names ih =>
    obtain ⟨hname, hnames⟩ := List.nodup_cons.1 hn
    have hrest := ih (nodup_relieve hw name) hnames h
    by_cases hmem : n ∈ names
    · rw [if_pos hmem] at hrest
      rw [if_pos (List.mem_cons_of_mem _ hmem)]
      have := mem_relieve hw hrest.2
      rw [if_neg fun e : n = name => hname (e ▸ hmem)] at this
      exact ⟨hrest.1, this⟩
    · rw [if_neg hmem] at hrest
      have := mem_relieve hw hrest
      simpa [hmem] using this

/-- A name that came onto the stack is among `names` and had one reference left. -/
theorem mem_release_stack {stack : List String} {waiting : Waiting} {names : List String}
    (hw : (waiting.map Prod.fst).Nodup) (hn : names.Nodup) {n : String}
    (h : n ∈ (release stack waiting names).1) :
    n ∈ stack ∨ n ∈ names ∧ ∃ k ≤ 1, (n, k) ∈ waiting := by
  induction names generalizing stack waiting with
  | nil => exact .inl h
  | cons name names ih =>
    obtain ⟨hname, hnames⟩ := List.nodup_cons.1 hn
    rcases ih (nodup_relieve hw name) hnames h with hs | ⟨hmem, k, hk, hm⟩
    · split at hs
      · next hr =>
        rcases List.mem_cons.1 hs with rfl | hs
        · exact .inr ⟨List.mem_cons_self, mem_of_relieve hr⟩
        · exact .inl hs
      · exact .inl hs
    · have := mem_relieve hw hm
      rw [if_neg fun e : n = name => hname (e ▸ hmem)] at this
      exact .inr ⟨List.mem_cons_of_mem _ hmem, k, hk, this⟩

/-! ## Placing a name -/

/-- Placing a name takes one entry out of the count of every name that it refers to. -/
theorem pending_append {graph : Graph} (hn : graph.names.Nodup) {done : List String}
    {entry : String × List String} (he : entry ∈ graph) (hd : entry.1 ∉ done) (name : String) :
    graph.pending done name =
      graph.pending (done ++ [entry.1]) name + if name ∈ entry.2 then 1 else 0 := by
  unfold pending
  induction graph with
  | nil => simp at he
  | cons first rest ih =>
    obtain ⟨hne, hrest⟩ := List.nodup_cons.1 (show (first.1 :: names rest).Nodup from hn)
    rw [List.countP_cons, List.countP_cons]
    rcases List.mem_cons.1 he with rfl | he
    · have hsame : rest.countP (fun e => decide (e.1 ∉ done ++ [entry.1] ∧ name ∈ e.2)) =
          rest.countP fun e => decide (e.1 ∉ done ∧ name ∈ e.2) :=
        List.countP_congr fun e hm => by
          have : e.1 ≠ entry.1 := fun h => hne (h ▸ mem_names_of_mem hm)
          simp [this]
      rw [hsame]
      simp [hd]
    · have : first.1 ≠ entry.1 := fun h => hne (h ▸ mem_names_of_mem he)
      rw [ih hrest he]
      simp only [List.mem_append, List.mem_singleton, this, or_false]
      omega

theorem pending_pos_iff {graph : Graph} {done : List String} {name : String} :
    0 < graph.pending done name ↔ ∃ entry ∈ graph, entry.1 ∉ done ∧ name ∈ entry.2 := by
  simp [pending, List.countP_pos_iff]

theorem Inv.start (graph : Graph) :
    graph.Inv [] (((graph.names.map fun name => (name, graph.degree name)).filter
        fun w => w.2 == 0).map Prod.fst).reverse
      ((graph.names.map fun name => (name, graph.degree name)).filter fun w => w.2 != 0) := by
  have hdegree : ∀ name, graph.degree name = graph.pending [] name := fun name => by
    simp [degree, pending]
  refine ⟨?perm, fun name hname entry he hm => ?free, fun w hw => ?counts⟩
  case perm =>
    have hsplit := List.filter_append_perm (fun w : String × Nat => w.2 == 0)
      (graph.names.map fun name => (name, graph.degree name))
    have hnames := hsplit.map Prod.fst
    rw [List.map_append, List.map_map, Function.comp_def, List.map_id'] at hnames
    exact ((List.reverse_perm _).append_right _).trans hnames
  case free =>
    simp only [List.mem_reverse, List.mem_map, List.mem_filter, beq_iff_eq] at hname
    obtain ⟨w, ⟨⟨n, -, rfl⟩, hz⟩, rfl⟩ := hname
    have : 0 < graph.pending [] n := pending_pos_iff.2 ⟨entry, he, by simp, hm⟩
    rw [← hdegree n] at this
    omega
  case counts =>
    simp only [List.mem_filter, List.mem_map, bne_iff_ne] at hw
    obtain ⟨⟨n, -, rfl⟩, hz⟩ := hw
    exact ⟨hdegree n, Nat.pos_of_ne_zero hz⟩

section
variable {graph : Graph} (hn : graph.names.Nodup)
include hn

/-- Placing the name on top of the stack and releasing those that it refers to. -/
theorem Inv.step {done stack : List String} {waiting : Waiting} {name : String}
    (h : graph.Inv done (name :: stack) waiting) :
    graph.Inv (done ++ [name]) (release stack waiting (graph.targets name)).1
      (release stack waiting (graph.targets name)).2 := by
  have hall : (done ++ (name :: (stack ++ waiting.map Prod.fst))).Nodup :=
    h.perm.nodup_iff.2 hn
  have hname : name ∉ done := fun hd =>
    (List.nodup_append.1 hall).2.2 name hd name List.mem_cons_self rfl
  have hw : (waiting.map Prod.fst).Nodup := by
    have := (List.nodup_append.1 hall).2.1
    exact (List.nodup_cons.1 this).2.of_append_right
  -- the entry of the placed name
  obtain ⟨entry, he, hentry⟩ : ∃ entry ∈ graph, entry.1 = name :=
    List.mem_map.1 (h.perm.subset (by simp))
  subst hentry
  have htargets : ∀ n, n ∈ graph.targets entry.1 ↔ n ∈ entry.2 := fun n => by
    rw [mem_targets, references_of_mem hn he]
  have hdistinct : (graph.targets entry.1).Nodup := Text.nodup_distinct _
  have hpending := pending_append hn he hname
  refine ⟨?perm, fun n hm e hg hne => ?free, fun w hm => ?counts⟩
  case perm =>
    rw [List.append_assoc, List.singleton_append]
    exact (((perm_release stack waiting _).cons _).append_left done).trans h.perm
  case free =>
    rcases mem_release_stack hw hdistinct hm with hs | ⟨ht, k, hk, hwait⟩
    · exact List.mem_append_left _ (h.free n (List.mem_cons_of_mem _ hs) e hg hne)
    · -- the placed name held `n` back alone
      have hcount := h.counts _ hwait
      rw [hpending n, if_pos ((htargets n).1 ht)] at hcount
      apply Decidable.byContradiction
      intro hd
      have : 0 < graph.pending (done ++ [entry.1]) n := pending_pos_iff.2 ⟨e, hg, hd, hne⟩
      omega
  case counts =>
    obtain ⟨n, k⟩ := w
    have hwait := mem_release_waiting hw hdistinct hm
    by_cases ht : n ∈ graph.targets entry.1
    · rw [if_pos ht] at hwait
      have hcount := h.counts _ hwait.2
      rw [hpending n, if_pos ((htargets n).1 ht)] at hcount
      exact ⟨Nat.add_right_cancel hcount.1, hwait.1⟩
    · rw [if_neg ht] at hwait
      have hcount := h.counts _ hwait
      rw [hpending n, if_neg fun hm => ht ((htargets n).2 hm)] at hcount
      exact hcount

/-- A whole run: it empties the stack, and whoever refers to a name that it places is placed
before. -/
theorem Inv.placed {done stack : List String} {waiting : Waiting}
    (h : graph.Inv done stack waiting) :
    graph.Inv (done ++ (place graph stack waiting).1) [] (place graph stack waiting).2 ∧
      graph.Follows done (place graph stack waiting).1 := by
  fun_induction place graph stack waiting generalizing done with
  | case1 => exact ⟨by simpa using h, trivial⟩
  | case2 _ name _ _ placed left hrun =>
    rename_i ih
    obtain ⟨hinv, hfollows⟩ := ih (h.step hn)
    rw [hrun] at hinv hfollows
    exact ⟨by simpa using hinv, h.free name List.mem_cons_self, hfollows⟩

/-- **What a run does**: the placed names and those left over are the listed names, each once;
whoever refers to a placed name is placed before it; each name left over is referred to by one. -/
theorem run_spec :
    (graph.run.1 ++ graph.run.2).Perm graph.names ∧ graph.Follows [] graph.run.1 ∧
      ∀ b ∈ graph.run.2, ∃ a ∈ graph.run.2, graph.Edge a b := by
  obtain ⟨hinv, hfollows⟩ := (Inv.start graph).placed hn
  have hperm : (graph.run.1 ++ graph.run.2).Perm graph.names := by simpa [run] using hinv.perm
  refine ⟨hperm, hfollows, fun b hb => ?_⟩
  obtain ⟨w, hw, rfl⟩ := List.mem_map.1 hb
  obtain ⟨hcount, hpos⟩ := hinv.counts w hw
  rw [hcount] at hpos
  obtain ⟨entry, he, hd, hm⟩ := pending_pos_iff.1 hpos
  have hleft : entry.1 ∈ graph.run.2 := by
    have := hperm.symm.subset (mem_names_of_mem he)
    exact (List.mem_append.1 this).resolve_left (by simpa [run] using hd)
  exact ⟨entry.1, hleft, ⟨entry, he, rfl, hm⟩, hperm.subset (List.mem_append_right _ hb)⟩

end

/-! ## Reading the order off -/

theorem Follows.mem_take {graph : Graph} {done order : List String}
    (h : graph.Follows done order) {i : Nat} {b : String} (hb : order[i]? = some b)
    {entry : String × List String} (he : entry ∈ graph) (hm : b ∈ entry.2) :
    entry.1 ∈ done ++ order.take i := by
  induction order generalizing done i with
  | nil => simp at hb
  | cons name rest ih =>
    cases i with
    | zero =>
      simp only [List.getElem?_cons_zero, Option.some.injEq] at hb
      subst hb
      simpa using h.1 entry he hm
    | succ i =>
      have := ih h.2 (by simpa using hb)
      simpa using this

/-- A predecessor of a placed name has an earlier place. -/
theorem Follows.exists_lt {graph : Graph} {order : List String} (h : graph.Follows [] order)
    {a b : String} (he : graph.Edge a b) {j : Nat} (hb : order[j]? = some b) :
    ∃ i < j, order[i]? = some a := by
  obtain ⟨⟨entry, hg, rfl, hm⟩, -⟩ := he
  have htake : entry.1 ∈ order.take j := by simpa using h.mem_take hb hg hm
  obtain ⟨i, hi⟩ := List.mem_iff_getElem?.1 htake
  rw [List.getElem?_take] at hi
  split at hi
  · next hlt => exact ⟨i, hlt, hi⟩
  · cases hi

end ApiContract.Graph
