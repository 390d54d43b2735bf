import ApiContract.Proofs.Operation.Basic
import ApiContract.Proofs.Operation.Content

/-!
# The references of operations

The types of an operation name the schemas to which its response and its body refer. Operations are
read one for one from their places; only the names of their functions depend on each other.

Main facts: `mem_aliases_of_read` and `forall₂_readPlaces`.
-/

namespace ApiContract.Operation

open Contract

/-- The types of schemas that the types of an operation name. -/
def aliases (operation : Operation) : List (List Char) :=
  Reading.aliases.names operation.responseType.toList ++
    (operation.requestBodyType.map fun type => Reading.aliases.names type.toList).getD []

/-- The response or the body of an operation has the schema. -/
def Shows (components : Value) (method : Method) (fields : Fields) (schema : Schema) : Prop :=
  (∃ responses, Value.fieldsOrNone (fields.field? "responses") = .ok responses ∧
    Content.ResponsesShow components responses schema) ∨
  (method.hasBody = true ∧
    Content.BodyShows components (fields.field? "requestBody") schema)

/-- The types that a contract names are those of the names that it refers to. -/
theorem mem_names_type {c : Contract} {P : Schema → Prop} (h : c.RefersLike schemasSpace P)
    (type : List Char) :
    type ∈ Reading.aliases.names c.type ↔
      ∃ schema, P schema ∧
        ∃ target ∈ schema.written, Identifier.typeAlias target.toList = type := by
  obtain ⟨targets, hrefers, htargets⟩ := h
  rw [(hrefers.type rfl).eq, List.mem_map]
  constructor
  · rintro ⟨target, ht, rfl⟩
    obtain ⟨schema, hs, hw⟩ := (htargets target).1 ht
    exact ⟨schema, hs, target, hw, rfl⟩
  · rintro ⟨schema, hs, target, hw, rfl⟩
    exact ⟨target, (htargets target).2 ⟨schema, hs, hw⟩, rfl⟩

/-- The types of an operation are those of two contracts, that of its response and that of its body
if its method has one. -/
theorem read_eq_ok {around : Surroundings} {path : String} {method : Method} {fields : Fields}
    {operation : Operation} (h : (read around path method fields).outcome = .ok operation) :
    (∃ responses response, Value.fieldsOrNone (fields.field? "responses") = .ok responses ∧
      (Content.ofResponses around.space around.components responses).outcome = .ok response ∧
      operation.responseType = String.ofList response.type) ∧
    (method.hasBody = true ∧ (∃ body, (Content.ofRequestBody around.space around.components
        (fields.field? "requestBody")).outcome = .ok body ∧
        operation.requestBodyType = some (String.ofList body.type)) ∨
      method.hasBody = false ∧ operation.requestBodyType = none) := by
  obtain ⟨_, _, responses, response, -, hbody, hresponses, hresponse, rfl⟩ := exists_of_read h
  refine ⟨⟨responses, response, hresponses, hresponse, rfl⟩, ?_⟩
  rcases hbody with ⟨hmethod, body, hread, rfl⟩ | ⟨hmethod, rfl⟩
  · exact .inl ⟨hmethod, body, hread, rfl⟩
  · exact .inr ⟨hmethod, rfl⟩

theorem mem_aliases_of_read {around : Surroundings} {path : String} {method : Method}
    {fields : Fields} {operation : Operation} (hspace : around.space = schemasSpace)
    (h : (read around path method fields).outcome = .ok operation) (type : List Char) :
    type ∈ operation.aliases ↔ ∃ schema, Shows around.components method fields schema ∧
      ∃ target ∈ schema.written, Identifier.typeAlias target.toList = type := by
  obtain ⟨⟨responses, response, hresponses, hresponse, hresponseType⟩, hbody⟩ := read_eq_ok h
  rw [hspace] at hresponse hbody
  have hshown : ∀ schema, Content.ResponsesShow around.components responses schema ↔
      ∃ responses, Value.fieldsOrNone (fields.field? "responses") = .ok responses ∧
        Content.ResponsesShow around.components responses schema := by
    intro schema
    constructor
    · intro hs
      exact ⟨responses, hresponses, hs⟩
    · rintro ⟨others, hothers, hs⟩
      cases hresponses.symm.trans hothers
      exact hs
  have hfirst := mem_names_type ((Content.refersLike_ofResponses hresponse).congr hshown) type
  have hsecond : type ∈ (operation.requestBodyType.map fun type =>
        Reading.aliases.names type.toList).getD [] ↔
      ∃ schema, (method.hasBody = true ∧
        Content.BodyShows around.components (fields.field? "requestBody") schema) ∧
        ∃ target ∈ schema.written, Identifier.typeAlias target.toList = type := by
    rcases hbody with ⟨hmethod, body, hread, htype⟩ | ⟨hmethod, htype⟩
    · rw [htype, Option.map_some, Option.getD_some, String.toList_ofList,
        mem_names_type (Content.refersLike_ofRequestBody hread)]
      simp only [hmethod, true_and]
    · rw [htype, Option.map_none, Option.getD_none, hmethod]
      simp
  rw [aliases, List.mem_append, hresponseType, String.toList_ofList, hfirst, hsecond]
  simp only [Shows, or_and_right, exists_or]

/-- A property of all types that an operation names is one of all names to which its schemas
refer. -/
theorem forall_aliases_iff {around : Surroundings} {path : String} {method : Method}
    {fields : Fields} {operation : Operation} (hspace : around.space = schemasSpace)
    (h : (read around path method fields).outcome = .ok operation) {P : List Char → Prop} :
    (∀ type ∈ operation.aliases, P type) ↔
      ∀ schema, Shows around.components method fields schema →
        ∀ target ∈ schema.written, P (Identifier.typeAlias target.toList) := by
  constructor
  · intro hall schema hs target hw
    exact hall _ ((mem_aliases_of_read hspace h _).2 ⟨schema, hs, target, hw, rfl⟩)
  · intro hall type htype
    obtain ⟨schema, hs, target, hw, rfl⟩ := (mem_aliases_of_read hspace h type).1 htype
    exact hall schema hs target hw

/-! ## Operations of a description -/

theorem forall_mem_iff_of_forall₂ {α β : Type} {R : α → β → Prop} {xs : List α} {ys : List β}
    (h : List.Forall₂ R xs ys) {P : α → Prop} {Q : β → Prop} (hR : ∀ x y, R x y → (P x ↔ Q y)) :
    (∀ x ∈ xs, P x) ↔ ∀ y ∈ ys, Q y := by
  induction h with
  | nil => simp
  | cons hxy _ ih => rw [List.forall_mem_cons, List.forall_mem_cons, hR _ _ hxy, ih]

/-- Operations are read one for one, and only the names of their functions are changed. -/
theorem forall₂_readPlaces {components : Value} {basePath : List Char} {taken : List String}
    {places : List Place} {operations : List Operation}
    (h : (readPlaces components basePath taken places).outcome = .ok operations) :
    List.Forall₂ (fun place operation => ∃ original,
      (read ⟨place.pathItem, components, basePath, schemasSpace⟩ place.path place.method
        place.fields).outcome = .ok original ∧
      operation = { original with identifier := operation.identifier }) places operations := by
  induction places generalizing taken operations with
  | nil =>
    cases h
    exact .nil
  | cons place rest ih =>
    obtain ⟨original, horiginal, others, hothers, rfl⟩ := readPlaces_cons_eq_ok.1 h
    exact .cons ⟨original, horiginal, rfl⟩ (ih hothers)

end ApiContract.Operation
