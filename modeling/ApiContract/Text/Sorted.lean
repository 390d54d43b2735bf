/-!
# Names in order

`sorted` puts names in the order of their code points, `distinct` also drops repetitions.

Main facts: `mem_sorted`, `mem_distinct` (nothing is lost or added), `pairwise_distinct` (every name
stands below the next one), `distinct_congr` (only the names count, not how they are listed).
-/

namespace ApiContract.Text

/-- The names in the order of their code points. -/
def sorted (names : List String) : List String :=
  names.mergeSort fun a b => decide (a ≤ b)

/-- The names in the order of their code points, each once. -/
def distinct (names : List String) : List String :=
  (sorted names).eraseReps

@[simp] theorem mem_sorted {names : List String} {a : String} : a ∈ sorted names ↔ a ∈ names := by
  simp [sorted]

theorem perm_sorted (names : List String) : (sorted names).Perm names :=
  List.mergeSort_perm names _

theorem pairwise_sorted (names : List String) : (sorted names).Pairwise (· ≤ ·) := by
  have h := @List.pairwise_mergeSort String (fun a b => decide (a ≤ b))
    (fun a b c hab hbc => by simpa using String.le_trans (by simpa using hab) (by simpa using hbc))
    (fun a b => by simpa using String.le_total a b) names
  exact h.imp fun hab => by simpa using hab

theorem lt_of_le_of_ne {a b : String} (h : a ≤ b) (hne : a ≠ b) : a < b :=
  String.not_le.1 fun hba => hne (String.le_antisymm h hba)

/-- Names without repetitions, once in order, stand each below the next. -/
theorem pairwise_lt_sorted {names : List String} (h : names.Nodup) :
    (sorted names).Pairwise (· < ·) := by
  have hn : (sorted names).Nodup := (perm_sorted names).nodup_iff.2 h
  exact (pairwise_sorted names).and hn |>.imp fun hab => lt_of_le_of_ne hab.1 hab.2

theorem nodup_of_pairwise_lt {names : List String} (h : names.Pairwise (· < ·)) : names.Nodup := by
  refine List.Pairwise.imp (fun {a b} hab => ?_) h
  rintro rfl
  exact String.lt_irrefl a hab

/-- Lists that stand in order are equal when they hold the same names. -/
theorem eq_of_pairwise_lt {names others : List String} (hn : names.Pairwise (· < ·))
    (ho : others.Pairwise (· < ·)) (h : ∀ a, a ∈ names ↔ a ∈ others) : names = others := by
  have hp := (List.perm_ext_iff_of_nodup (nodup_of_pairwise_lt hn) (nodup_of_pairwise_lt ho)).2 h
  exact hp.eq_of_pairwise
    (fun a b _ _ hab hba => absurd (String.lt_trans hab hba) (String.lt_irrefl a)) hn ho

theorem mem_eraseReps_loop [BEq α] [LawfulBEq α] (x : α) (rest acc : List α) (a : α) :
    a ∈ List.eraseRepsBy.loop (· == ·) x rest acc ↔ a = x ∨ a ∈ rest ∨ a ∈ acc := by
  induction rest generalizing x acc with
  | nil => simp [List.eraseRepsBy.loop]; exact Or.comm
  | cons y ys ih =>
    simp only [List.eraseRepsBy.loop]
    split
    · next h =>
      have : x = y := by simpa using h
      subst this
      rw [ih]; simp only [List.mem_cons]; grind
    · rw [ih]
      simp only [List.mem_cons]
      grind

@[simp] theorem mem_distinct {names : List String} {a : String} :
    a ∈ distinct names ↔ a ∈ names := by
  unfold distinct List.eraseReps List.eraseRepsBy
  cases h : sorted names with
  | nil =>
    have := @mem_sorted names a
    rw [h] at this
    simpa using this
  | cons x xs =>
    have := @mem_sorted names a
    rw [h] at this
    rw [← this, mem_eraseReps_loop]
    simp

/-- `acc` holds what stands before `x`, the last one first. -/
theorem pairwise_eraseReps_loop {x : String} {rest acc : List String}
    (hx : (x :: rest).Pairwise (· ≤ ·)) (hacc : (x :: acc).Pairwise fun a b => b < a) :
    (List.eraseRepsBy.loop (· == ·) x rest acc).Pairwise (· < ·) := by
  induction rest generalizing x acc with
  | nil => exact List.pairwise_reverse.2 hacc
  | cons y ys ih =>
    obtain ⟨hle, hys⟩ := List.pairwise_cons.1 hx
    simp only [List.eraseRepsBy.loop]
    split
    · next h =>
      have : x = y := by simpa using h
      subst this
      exact ih hys hacc
    · next h =>
      have hxy : x < y := lt_of_le_of_ne (hle y (by simp)) (by simpa using h)
      refine ih hys (List.pairwise_cons.2 ⟨fun b hb => ?_, hacc⟩)
      rcases List.mem_cons.1 hb with rfl | hb
      · exact hxy
      · exact String.lt_trans ((List.pairwise_cons.1 hacc).1 b hb) hxy

theorem pairwise_distinct (names : List String) : (distinct names).Pairwise (· < ·) := by
  unfold distinct List.eraseReps List.eraseRepsBy
  cases h : sorted names with
  | nil => simp
  | cons x xs => exact pairwise_eraseReps_loop (h ▸ pairwise_sorted names) (by simp)

theorem nodup_distinct (names : List String) : (distinct names).Nodup :=
  nodup_of_pairwise_lt (pairwise_distinct names)

theorem distinct_congr {names others : List String} (h : ∀ a, a ∈ names ↔ a ∈ others) :
    distinct names = distinct others :=
  eq_of_pairwise_lt (pairwise_distinct names) (pairwise_distinct others) fun a => by simp [h a]

end ApiContract.Text
