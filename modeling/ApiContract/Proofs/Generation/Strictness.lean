import ApiContract.Complaint
import ApiContract.Proofs.Generation.Basic
import ApiContract.Proofs.Schema.References

/-!
# Strict generations

A strict generation is refused for the names that declared schemas refer to and that are not
declared. It is refused before anything else is looked at, so also where schemas refer to each other
in a cycle, or an operation cannot be read. Where every name is declared, a strict generation and
one that is not strict are the same: in what they say, and in what they give or why they fail.

Main facts: `mem_dangling_iff` (the graph of schemas misses no reference, at any depth),
`error_unresolved_iff` and `strict_references`.
-/

namespace ApiContract.Generation

/-- A declared schema refers to the name, which is not declared. -/
def Undeclared (d : Description) (name : String) : Prop :=
  (∃ entry ∈ d.schemas, entry.2.RefersTo name) ∧ name ∉ d.schemas.map Prod.fst

section
variable {d : Description} {origin : Option String}

theorem mem_dangling_iff {name : String} :
    name ∈ (Graph.ofSchemas d.schemas).dangling ↔ Undeclared d name := by
  rw [Graph.mem_dangling, Graph.names_ofSchemas]
  refine and_congr_left fun _ => ⟨?_, ?_⟩
  · rintro ⟨entry, hentry, hname⟩
    obtain ⟨⟨n, schema⟩, hmem, rfl⟩ := List.mem_map.1 hentry
    exact ⟨_, hmem, Schema.mem_references_iff.1 (Schema.mem_dependencies.1 hname)⟩
  · rintro ⟨⟨n, schema⟩, hmem, hrefers⟩
    exact ⟨_, List.mem_map_of_mem hmem,
      Schema.mem_dependencies.2 (Schema.mem_references_iff.2 hrefers)⟩

theorem dangling_eq_nil_iff :
    (Graph.ofSchemas d.schemas).dangling = [] ↔ ∀ name, ¬ Undeclared d name := by
  simp only [List.eq_nil_iff_forall_not_mem, mem_dangling_iff]

/-! ## Why a generation fails -/

theorem error_checkReferences_iff {strict : Bool} {names : List String} {fault : Fault} :
    (checkReferences strict names).outcome = .error fault ↔
      strict = true ∧ names ≠ [] ∧ fault = .unresolved names := by
  unfold checkReferences
  split
  · next h => simp [h]
  · next h =>
    split
    · next hs => simp [h, hs, eq_comm]
    · next hs =>
      refine iff_of_false nofun ?_
      rintro ⟨hstrict, -, -⟩
      exact hs hstrict

theorem circular_of_emissionOrder {graph : Graph} {fault : Fault}
    (h : (emissionOrder graph).outcome = .error fault) : ∃ names, fault = .circular names := by
  unfold emissionOrder at h
  obtain h | ⟨order, -, h⟩ := Trace.bind_eq_error.1 h
  · obtain ⟨names, -, rfl⟩ := Trace.ofExcept_mapError_eq_error.1 h
    exact ⟨names, rfl⟩
  · cases h

/-- Collisions of names are reported and never refused. -/
theorem outcome_reportCollisions (collisions : List (String × List String)) :
    (reportCollisions collisions).outcome = .ok () := by
  induction collisions with
  | nil => rfl
  | cons collision collisions ih =>
    show (Trace.report _ _ >>= fun _ => reportCollisions collisions).outcome = _
    rw [Trace.outcome_bind, ih]
    rfl

/-- Undeclared names are the reason exactly when the check refuses them: it comes first, and what
comes after it fails for another reason. -/
theorem error_unresolved_iff {strict : Bool} {names : List String} :
    (generate d origin strict).outcome = .error (.unresolved names) ↔
      strict = true ∧ names ≠ [] ∧ names = (Graph.ofSchemas d.schemas).dangling := by
  unfold generate
  simp only [Trace.bind_eq_error, Trace.outcome_report, Trace.outcome_pure, reduceCtorEq, false_or,
    exists_const, true_and, and_false, or_false, error_checkReferences_iff,
    outcome_reportCollisions, Fault.unresolved.injEq]
  constructor
  · rintro (⟨hstrict, hne, rfl⟩ | ⟨_, -, h | ⟨_, -, h⟩⟩)
    · exact ⟨hstrict, hne, rfl⟩
    · obtain ⟨_, h⟩ := circular_of_emissionOrder h
      cases h
    · obtain ⟨_, -, h⟩ := Trace.mapError_eq_error.1 h
      cases h
  · rintro ⟨hstrict, hne, rfl⟩
    exact .inl ⟨hstrict, hne, rfl⟩

/-! ## Strict or not -/

/-- Strictness counts only where there is an undeclared name. -/
theorem generate_congr (h : (Graph.ofSchemas d.schemas).dangling = []) (strict strict' : Bool) :
    generate d origin strict = generate d origin strict' := by
  unfold generate
  simp only [h]
  rfl

/-- **Strict references**: a strict generation is refused for undeclared names exactly when a
declared schema refers to one, whatever else is wrong with the description. The names of the
complaint are all of these names and no others, in order and each once. If there are none, the
generation is the same as one that is not strict. -/
theorem strict_references (d : Description) (origin : Option String) :
    ((∃ names, (generate d origin true).outcome = .error (.unresolved names)) ↔
      ∃ name, Undeclared d name) ∧
    (∀ names, (generate d origin true).outcome = .error (.unresolved names) →
      (∀ name, name ∈ (Complaint.unresolved names).names ↔ Undeclared d name) ∧
      (Complaint.unresolved names).names.Pairwise (· < ·)) ∧
    ((∀ name, ¬ Undeclared d name) → generate d origin true = generate d origin false) := by
  refine ⟨?_, fun names h => ?_, fun h => generate_congr (dangling_eq_nil_iff.2 h) _ _⟩
  · constructor
    · rintro ⟨names, h⟩
      obtain ⟨-, hne, rfl⟩ := error_unresolved_iff.1 h
      obtain ⟨name, hname⟩ := List.exists_mem_of_ne_nil _ hne
      exact ⟨name, mem_dangling_iff.1 hname⟩
    · rintro ⟨name, h⟩
      refine ⟨_, error_unresolved_iff.2 ⟨rfl, fun hnil => ?_, rfl⟩⟩
      exact dangling_eq_nil_iff.1 hnil name h
  · obtain ⟨-, -, rfl⟩ := error_unresolved_iff.1 h
    refine ⟨fun name => Text.mem_sorted.trans mem_dangling_iff, ?_⟩
    exact Text.pairwise_lt_sorted (Text.nodup_distinct _)

end

end ApiContract.Generation
