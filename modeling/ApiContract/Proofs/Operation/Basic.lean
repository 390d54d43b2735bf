import ApiContract.Operation.Reader

/-!
# What an operation consists of

`exists_of_read` takes the reading of an operation apart. `ReadFrom` says how the parts that do not
hang on contents come about, one field for each. `readPlaces` gives each operation a free name; a
step lemma takes one operation off, and a run over two lists of places is a run over the first and,
with the names given by it, over the second.

Main facts: `exists_of_read`, `readFrom_of_ok`, `readPlaces_cons_eq_ok`, `readPlaces_append_eq_ok`.
-/

namespace ApiContract.Operation

open Contract

/-- The name of an operation as long as no other counts: that of the description, or one from the
method and the path. -/
def ownName (method : Method) (relative : List Char) : Option String → List Char
  | some name => Identifier.ofText name.toList
  | none => Path.operationName method.name.toList relative

/-- The parts of an operation but for its types and remarks. -/
structure ReadFrom (around : Surroundings) (path : String) (method : Method) (fields : Fields)
    (operation : Operation) : Prop where
  path_eq : operation.path = path
  method_eq : operation.method = method
  operationId_eq : operation.operationId = explicitId fields
  identifier_eq : operation.identifier = String.ofList
    (ownName method (Path.relativeTo around.basePath path.toList) (explicitId fields))
  pathParams_eq : ∃ parameters, operation.pathParams =
    pathNames parameters (Path.relativeTo around.basePath path.toList)
  urlTemplate_eq : operation.urlTemplate =
    String.ofList (Path.template (Path.relativeTo around.basePath path.toList))

/-- An operation is put together from its parameters, the contract of its body if its method has
one, and the contract of its responses. -/
theorem exists_of_read {around : Surroundings} {path : String} {method : Method} {fields : Fields}
    {operation : Operation} (h : (read around path method fields).outcome = .ok operation) :
    ∃ parameters body responses response,
      Parameter.read around.components (around.pathItem.field? "parameters")
        (fields.field? "parameters") = .ok parameters ∧
      (method.hasBody = true ∧ (∃ contract, (Content.ofRequestBody around.space around.components
          (fields.field? "requestBody")).outcome = .ok contract ∧ body = some contract) ∨
        method.hasBody = false ∧ body = none) ∧
      Value.fieldsOrNone (fields.field? "responses") = .ok responses ∧
      (Content.ofResponses around.space around.components responses).outcome = .ok response ∧
      operation = {
        path, method
        operationId := explicitId fields
        identifier := String.ofList
          (ownName method (Path.relativeTo around.basePath path.toList) (explicitId fields))
        pathParams := pathNames parameters (Path.relativeTo around.basePath path.toList)
        queryParams := Parameter.namesIn parameters "query"
        requestBodyType := body.map fun c => String.ofList c.type
        responseType := String.ofList response.type
        urlTemplate := String.ofList
          (Path.template (Path.relativeTo around.basePath path.toList))
        summary := fields.text? "summary"
        deprecated := fields.isTrue "deprecated" } := by
  unfold read at h
  rw [Trace.bind_eq_ok] at h
  obtain ⟨parameters, hparameters, h⟩ := h
  cases hbody : method.hasBody with
  | true =>
    rw [hbody, if_pos rfl] at h
    simp only [Trace.bind_eq_ok, Trace.map_eq_ok, Trace.outcome_ofExcept, Trace.outcome_pure,
      Except.ok.injEq] at h
    obtain ⟨_, ⟨body, hread, rfl⟩, responses, hresponses, response, hresponse, rfl⟩ := h
    exact ⟨parameters, some body, responses, response, hparameters, .inl ⟨rfl, body, hread, rfl⟩,
      hresponses, hresponse, rfl⟩
  | false =>
    rw [hbody, if_neg Bool.false_ne_true] at h
    simp only [Trace.bind_eq_ok, Trace.outcome_ofExcept, Trace.outcome_pure,
      Except.ok.injEq] at h
    obtain ⟨_, rfl, responses, hresponses, response, hresponse, rfl⟩ := h
    exact ⟨parameters, none, responses, response, hparameters, .inr ⟨rfl, rfl⟩, hresponses,
      hresponse, rfl⟩

theorem readFrom_of_ok {around : Surroundings} {path : String} {method : Method} {fields : Fields}
    {operation : Operation} (h : (read around path method fields).outcome = .ok operation) :
    ReadFrom around path method fields operation := by
  obtain ⟨parameters, _, _, _, -, -, -, -, rfl⟩ := exists_of_read h
  exact ⟨rfl, rfl, rfl, rfl, ⟨parameters, rfl⟩, rfl⟩

theorem mem_pathNames {parameters : List Parameter} {path : List Char} {a : String} :
    a ∈ pathNames parameters path ↔ a ∈ Parameter.namesIn parameters "path" ∨
      ∃ name ∈ Path.placeholders path, a = String.ofList name :=
  Parameter.mem_foldl_addNew

theorem nodup_pathNames (parameters : List Parameter) (path : List Char) :
    (pathNames parameters path).Nodup :=
  Parameter.nodup_foldl_addNew _ _ (Parameter.nodup_namesIn parameters "path")

/-! ## Runs over the places of a description -/

section
variable {components : Value} {basePath : List Char} {taken : List String}

/-- The operation at a place, read by itself. -/
def readAlone (components : Value) (basePath : List Char) (place : Place) :
    Trace Description.Fault Operation :=
  read ⟨place.pathItem, components, basePath, schemasSpace⟩ place.path place.method place.fields

theorem readPlaces_cons_eq_ok {place : Place} {rest : List Place} {operations : List Operation} :
    (readPlaces components basePath taken (place :: rest)).outcome = .ok operations ↔
      ∃ original, (readAlone components basePath place).outcome = .ok original ∧
        ∃ others, (readPlaces components basePath (freeName taken original.identifier :: taken)
          rest).outcome = .ok others ∧
        { original with identifier := freeName taken original.identifier } :: others =
          operations := by
  rw [readPlaces, Trace.bind_eq_ok]
  refine exists_congr fun original => and_congr_right fun _ => ?_
  -- a new name is noted, which changes nothing
  dsimp only
  split
  · simp only [Trace.bind_eq_ok, Trace.outcome_note, Trace.outcome_pure, Except.ok.injEq,
      exists_const, true_and]
  · simp only [Trace.bind_eq_ok, Trace.outcome_pure, Except.ok.injEq]

/-- The names of the functions of operations, the last one first. -/
def namesBack (operations : List Operation) : List String :=
  (operations.map Operation.identifier).reverse

theorem readPlaces_append_eq_ok {front back : List Place} {operations : List Operation} :
    (readPlaces components basePath taken (front ++ back)).outcome = .ok operations ↔
      ∃ before, (readPlaces components basePath taken front).outcome = .ok before ∧
        ∃ after, (readPlaces components basePath (namesBack before ++ taken) back).outcome =
          .ok after ∧ before ++ after = operations := by
  induction front generalizing taken operations with
  | nil =>
    simp only [List.nil_append, readPlaces, Trace.outcome_pure, Except.ok.injEq,
      exists_eq_left', namesBack, List.map_nil, List.reverse_nil, exists_eq_right]
  | cons place rest ih =>
    simp only [List.cons_append, readPlaces_cons_eq_ok, ih]
    constructor
    · rintro ⟨original, horiginal, _, ⟨before, hbefore, after, hafter, rfl⟩, rfl⟩
      refine ⟨_, ⟨original, horiginal, before, hbefore, rfl⟩, after, ?_, rfl⟩
      simpa [namesBack] using hafter
    · rintro ⟨_, ⟨original, horiginal, before, hbefore, rfl⟩, after, hafter, rfl⟩
      refine ⟨original, horiginal, _, ⟨before, hbefore, after, ?_, rfl⟩, rfl⟩
      simpa [namesBack] using hafter

end

end ApiContract.Operation
