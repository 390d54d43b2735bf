import ApiContract.Generation

/-!
# What a generation gives

`Generated` says how the modules of a successful generation come about, one field for each part of
the result.

Main fact: `generated_of_ok`.
-/

namespace ApiContract.Generation

/-- `s` is what the parts of a description give. -/
structure Generated (d : Description) (strict : Bool) (s : Sources) : Prop where
  resolved : strict = true → (Graph.ofSchemas d.schemas).dangling = []
  order : (Graph.ofSchemas d.schemas).emission = .ok s.schemaOrder
  schemas : s.schemas =
    Module.schemas (s.schemaOrder.filterMap (Module.block? d.schemas))
  operations : (Operation.readAll d (Path.basePath d.pathTexts)).outcome = .ok s.operations
  endpoints : s.endpoints =
    Module.endpoints s.operations (String.ofList (Path.basePath d.pathTexts))

theorem resolved_of_ok {strict : Bool} {names : List String} {u : Unit}
    (h : (checkReferences strict names).outcome = .ok u) (hs : strict = true) : names = [] := by
  subst hs
  unfold checkReferences at h
  split at h
  · assumption
  · cases h

theorem emission_of_ok {graph : Graph} {order : List String}
    (h : (emissionOrder graph).outcome = .ok order) : graph.emission = .ok order := by
  unfold emissionOrder at h
  simp only [Trace.bind_eq_ok, Trace.ofExcept_mapError_eq_ok, Trace.outcome_note,
    Trace.outcome_pure, Except.ok.injEq, exists_const, true_and] at h
  obtain ⟨names, hnames, rfl⟩ := h
  exact hnames

theorem generated_of_ok {d : Description} {origin : Option String} {strict : Bool} {s : Sources}
    (h : (generate d origin strict).outcome = .ok s) : Generated d strict s := by
  unfold generate at h
  simp only [Trace.bind_eq_ok, Trace.outcome_report, Trace.outcome_pure, Except.ok.injEq,
    exists_const, true_and, Trace.mapError_eq_ok] at h
  obtain ⟨_, hresolved, order, horder, _, -, operations, hoperations, rfl⟩ := h
  exact ⟨resolved_of_ok hresolved, emission_of_ok horder, rfl, hoperations, rfl⟩

end ApiContract.Generation
