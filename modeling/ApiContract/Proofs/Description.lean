import ApiContract.Description.Reader

/-!
# The names of a description

Later entries replace earlier ones of the same name, so no name of a description that is read stands
in it twice.

Main fact: `nodup_schemas`.
-/

namespace ApiContract

namespace Schema

variable {α : Type}

/-- A name that is set keeps its place, or takes the last one. -/
theorem names_insertNamed (named : List (String × α)) (name : String) (item : α) :
    (insertNamed named name item).map Prod.fst =
      if name ∈ named.map Prod.fst then named.map Prod.fst else named.map Prod.fst ++ [name] := by
  induction named with
  | nil => rfl
  | cons entry rest ih =>
    obtain ⟨n, x⟩ := entry
    by_cases hn : n = name
    · simp [insertNamed, hn]
    · have hn' : name ≠ n := Ne.symm hn
      simp only [insertNamed, hn, if_false, List.map_cons, ih, List.mem_cons, hn', false_or]
      split <;> rfl

theorem nodup_insertNamed {named : List (String × α)} (h : (named.map Prod.fst).Nodup)
    (name : String) (item : α) : ((insertNamed named name item).map Prod.fst).Nodup := by
  rw [names_insertNamed]
  split
  · exact h
  · next hnot =>
    rw [List.nodup_append]
    refine ⟨h, List.nodup_cons.2 ⟨List.not_mem_nil, List.nodup_nil⟩, ?_⟩
    intro a ha b hb hab
    rw [List.mem_singleton] at hb
    exact hnot (hb ▸ hab ▸ ha)

theorem nodup_nameEntries {place : String} {entries : List (Scalar × α)}
    {named : List (String × α)} (h : nameEntries place entries = .ok named) :
    (named.map Prod.fst).Nodup := by
  unfold nameEntries at h
  split at h
  · cases h
    refine List.foldlRecOn (motive := fun named : List (String × α) => (named.map Prod.fst).Nodup)
      entries _ List.nodup_nil fun named hnamed entry _ => ?_
    dsimp only
    split
    · exact nodup_insertNamed hnamed _ _
    · exact hnamed
  · cases h

end Schema

namespace Description

theorem nodup_schemas {openapi : String} {fields : Fields} {d : Description}
    (h : (ofFields openapi fields).outcome = .ok d) : (d.schemas.map Prod.fst).Nodup := by
  unfold ofFields at h
  simp only [Trace.bind_eq_ok] at h
  obtain ⟨components, -, paths, -, info, -, servers, -, rawSchemas, -, schemas, -, h⟩ := h
  split at h
  · next named _ _ hnamed _ _ =>
    cases h
    exact Schema.nodup_nameEntries hnamed
  · cases h

end Description

end ApiContract
