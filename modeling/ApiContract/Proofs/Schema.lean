import ApiContract.Proofs.Schema.Step

/-!
# What the reader of schemas gives

A schema that is read from a value is built from the schemas of smaller values inside it, so what
the reader keeps on each of its ways holds of every schema that it gives. The names of properties
are read after their schemas and change none of these.

Main fact: `read_induction`.
-/

namespace ApiContract

namespace Schema

theorem forall_insertNamed {P : α → Prop} {named : List (String × α)} (name : String) {item : α}
    (hnamed : ∀ p ∈ named, P p.2) (hitem : P item) : ∀ p ∈ insertNamed named name item, P p.2 := by
  induction named with
  | nil => exact List.forall_mem_singleton.2 hitem
  | cons p named ih =>
    obtain ⟨hp, hothers⟩ := List.forall_mem_cons.1 hnamed
    unfold insertNamed
    split
    · exact List.forall_mem_cons.2 ⟨hitem, hothers⟩
    · exact List.forall_mem_cons.2 ⟨hp, ih hothers⟩

theorem forall_nameEntries {P : α → Prop} {place : String} {entries : List (Scalar × α)}
    {named : List (String × α)} (h : nameEntries place entries = .ok named)
    (hall : ∀ e ∈ entries, P e.2) : ∀ p ∈ named, P p.2 := by
  unfold nameEntries at h
  split at h
  · cases h
    refine List.foldlRecOn (motive := fun named : List (String × α) => ∀ p ∈ named, P p.2) entries _
      (List.forall_mem_nil _) fun named hnamed e he => ?_
    obtain ⟨k, x⟩ := e
    dsimp only
    split
    · exact forall_insertNamed _ hnamed (hall _ he)
    · exact hnamed
  · cases h

section
variable {motive : Schema → Prop} {fields : Fields}

theorem forall_readProperties
    (hinner : ∀ value, sizeOf value < sizeOf (Value.object fields) →
      ∀ schema, (read value).outcome = .ok schema → motive schema)
    {entries : List (Scalar × Schema)} (h : (readProperties fields).outcome = .ok entries) :
    ∀ e ∈ entries, motive e.2 := by
  intro e he
  unfold readProperties at h
  split at h
  · next properties found =>
    obtain ⟨⟨key, property⟩, hmem, hentry⟩ := Trace.exists_of_mem_mapM h e he
    obtain ⟨schema, hread, rfl⟩ := Trace.map_eq_ok.1 hentry
    exact hinner property (Fields.sizeOf_object?_lt found hmem) schema hread
  · cases h
    cases he

theorem forall_readAdditional (unknown : motive (.unknown false))
    (hinner : ∀ value, sizeOf value < sizeOf (Value.object fields) →
      ∀ schema, (read value).outcome = .ok schema → motive schema)
    {additional : Option Schema} (h : (readAdditional fields).outcome = .ok additional) :
    ∀ schema ∈ additional, motive schema := by
  intro schema hschema
  unfold readAdditional at h
  split at h
  · next inner found =>
    obtain ⟨read, hread, rfl⟩ := Trace.map_eq_ok.1 h
    cases hschema
    exact hinner _ (Value.sizeOf_field?_lt (Fields.field?_of_object? found)) schema hread
  · cases h
    split at hschema
    · cases hschema
      exact unknown
    · cases hschema

end

/-- **Induction over what is read.** Every schema that the reader gives has a property that the
reader keeps on each of its ways; a list of values is read only if it holds one at least. -/
theorem read_induction {motive : Schema → Prop}
    (text : ∀ nullable format, motive (text nullable format))
    (number : ∀ nullable integer, motive (number nullable integer))
    (boolean : ∀ nullable, motive (boolean nullable))
    (array : ∀ nullable items, motive items → motive (array nullable items))
    (object : ∀ nullable properties required additional, (∀ p ∈ properties, motive p.2) →
      (∀ schema ∈ additional, motive schema) →
      motive (object nullable properties required additional))
    (reference : ∀ nullable target, motive (reference nullable target))
    (enumeration : ∀ nullable values, values ≠ [] → motive (enumeration nullable values))
    (composite : ∀ nullable composition members, motive (composite nullable composition members))
    (unknown : ∀ nullable, motive (unknown nullable)) {value : Value} {schema : Schema}
    (h : (read value).outcome = .ok schema) : motive schema := by
  induction hsize : sizeOf value using Nat.strongRecOn generalizing value schema with
  | ind size ih =>
    subst hsize
    cases value with
    | scalar _ | list _ | set _ =>
      rw [read] at h
      · obtain ⟨_, -, h⟩ := Trace.bind_eq_ok.1 h
        cases h
        exact unknown _
      · rintro _ ⟨⟩
    | object fields =>
      have hinner (part : Value) (hpart : sizeOf part < sizeOf (Value.object fields))
          (schema : Schema) (hread : (read part).outcome = .ok schema) : motive schema :=
        ih _ hpart hread rfl
      rw [read_fields] at h
      split at h
      -- a reference
      · cases h
        exact reference _ _
      · split at h
        -- a composition
        · obtain ⟨schemas, -, h⟩ := Trace.bind_eq_ok.1 h
          cases h
          exact composite _ _ _
        · split at h
          · next hvalues =>
            cases h
            exact enumeration _ _ hvalues
          -- what the name of the type says
          · unfold readAs at h
            split at h
            · obtain ⟨format, -, h⟩ := Trace.bind_eq_ok.1 h
              cases h
              exact text _ _
            · cases h
              exact number _ _
            · cases h
              exact number _ _
            · cases h
              exact boolean _
            · split at h
              · next items found =>
                obtain ⟨schema, hread, h⟩ := Trace.bind_eq_ok.1 h
                cases h
                have hlt := Value.sizeOf_field?_lt (Fields.field?_of_object? found)
                exact array _ _ (hinner _ hlt _ hread)
              · obtain ⟨_, -, h⟩ := Trace.bind_eq_ok.1 h
                cases h
                exact unknown _
            · obtain ⟨additional, hadditional, h⟩ := Trace.bind_eq_ok.1 h
              obtain ⟨entries, hentries, h⟩ := Trace.bind_eq_ok.1 h
              obtain ⟨properties, hproperties, h⟩ := Trace.bind_eq_ok.1 h
              cases h
              apply object
              · exact forall_nameEntries hproperties (forall_readProperties hinner hentries)
              · exact forall_readAdditional (unknown false) hinner hadditional
            · obtain ⟨_, -, h⟩ := Trace.bind_eq_ok.1 h
              cases h
              exact unknown _
            · cases h
              exact unknown _

end Schema

end ApiContract
