import ApiContract.Proofs.Operation.Basic

/-!
# The names of parameters

The parameters of a path and of an operation are listed here by their names and locations.
`Lists` says which ones the items of a list declare, and `Collects` which names of two such lists
an operation gets for one location: those of the path that the operation does not declare again,
then those of the operation, each once. Nothing is lost where the operation declares a parameter of
the path again, for it has the same name and location.

Main facts: `read_of_lists`, `collects_namesIn` and `parameters_of_read`.
-/

namespace ApiContract

namespace Parameter

open Description

/-- The parameters, by name and location, that the items of a list declare. An item stands for an
object with both, or for something else, which declares nothing. -/
inductive Lists (components : Value) : List Value → List (String × String) → Prop
  | nil : Lists components [] []
  | parameter {item : Value} {items : List Value} {fields : Fields} {name location : String}
      {declared : List (String × String)} :
      Pointer.deref item components = .ok (.object fields) →
      fields.field? "name" = some (.text name) → fields.field? "in" = some (.text location) →
      Lists components items declared →
      Lists components (item :: items) ((name, location) :: declared)
  | other {item value : Value} {items : List Value} {declared : List (String × String)} :
      Pointer.deref item components = .ok value → (∀ fields, value ≠ .object fields) →
      Lists components items declared → Lists components (item :: items) declared

/-- The names of the parameters at a location, in order; empty names do not count. -/
def namesAt (location : String) (declared : List (String × String)) : List String :=
  (declared.filter fun p => p.2 = location ∧ p.1 ≠ "").map Prod.fst

/-- The names that an operation gets for a location from the parameters of its path and its own. -/
structure Collects (ofPath ofOperation : List (String × String)) (location : String)
    (names : List String) : Prop where
  nodup : names.Nodup
  mem_iff : ∀ name, name ∈ names ↔
    name ≠ "" ∧ ((name, location) ∈ ofPath ∨ (name, location) ∈ ofOperation)
  /-- The names of the path that are not declared again stand before those of the operation. -/
  eq : names = (namesAt location (ofPath.filter (· ∉ ofOperation))).eraseDups ++
    (namesAt location ofOperation).eraseDups

/-- The parameter of a name at a location. -/
def ofTexts (p : String × String) : Parameter :=
  ⟨.text p.1, .text p.2⟩

/-! ## Reading -/

theorem resolve_cons_eq_ok {components item value : Value} {items values : List Value}
    (hitem : Pointer.deref item components = .ok value)
    (hitems : resolve components items = .ok values) :
    resolve components (item :: items) = .ok (value :: values) := by
  unfold resolve at hitems ⊢
  rw [List.mapM_cons, hitem, hitems]
  rfl

theorem objectsAmong_cons_object (fields : Fields) (values : List Value) :
    Value.objectsAmong (.object fields :: values) = fields :: Value.objectsAmong values :=
  rfl

theorem objectsAmong_cons_other {value : Value} (h : ∀ fields, value ≠ .object fields)
    (values : List Value) :
    Value.objectsAmong (value :: values) = Value.objectsAmong values := by
  cases value with
  | object fields => exact absurd rfl (h fields)
  | scalar _ => rfl
  | list _ => rfl
  | set _ => rfl

theorem Lists.exists_values {components : Value} {items : List Value}
    {declared : List (String × String)} (h : Lists components items declared) :
    ∃ values, resolve components items = .ok values ∧
      (Value.objectsAmong values).mapM ofFields = .ok (declared.map ofTexts) := by
  induction h with
  | nil => exact ⟨[], rfl, rfl⟩
  | @parameter _ _ fields name location _ hitem hname hlocation _ ih =>
    obtain ⟨values, hvalues, hread⟩ := ih
    refine ⟨.object fields :: values, resolve_cons_eq_ok hitem hvalues, ?_⟩
    have hfields : ofFields fields = .ok (ofTexts (name, location)) := by
      rw [ofFields, hname, hlocation]
      rfl
    rw [objectsAmong_cons_object, List.mapM_cons, hfields, hread]
    rfl
  | @other _ value _ _ hitem hother _ ih =>
    obtain ⟨values, hvalues, hread⟩ := ih
    refine ⟨value :: values, resolve_cons_eq_ok hitem hvalues, ?_⟩
    rw [objectsAmong_cons_other hother, hread]

theorem same_ofTexts {p q : String × String} : (ofTexts p).same (ofTexts q) = true ↔ p = q := by
  simp [same, ofTexts, Scalar.same_text, Prod.ext_iff]

theorem any_same_ofTexts (declared : List (String × String)) (p : String × String) :
    (declared.map ofTexts).any (ofTexts p).same = decide (p ∈ declared) := by
  rw [Bool.eq_iff_iff, decide_eq_true_iff]
  simp [same_ofTexts]

theorem merge_map_ofTexts (ofPath ofOperation : List (String × String)) :
    merge (ofPath.map ofTexts) (ofOperation.map ofTexts) =
      (ofPath.filter (· ∉ ofOperation) ++ ofOperation).map ofTexts := by
  rw [merge, List.filter_map, List.map_append]
  congr 2
  refine List.filter_congr fun p _ => ?_
  rw [Function.comp_apply, any_same_ofTexts, decide_not]

theorem read_of_lists {components : Value} {pathField operationField : Option Value}
    {pathItems operationItems : List Value} {ofPath ofOperation : List (String × String)}
    (hpathItems : Value.itemsOrNone pathField = .ok pathItems)
    (hoperationItems : Value.itemsOrNone operationField = .ok operationItems)
    (hpath : Lists components pathItems ofPath)
    (hoperation : Lists components operationItems ofOperation) :
    read components pathField operationField =
      .ok ((ofPath.filter (· ∉ ofOperation) ++ ofOperation).map ofTexts) := by
  obtain ⟨pathValues, hpathValues, hpathRead⟩ := hpath.exists_values
  obtain ⟨operationValues, hoperationValues, hoperationRead⟩ := hoperation.exists_values
  rw [← merge_map_ofTexts]
  simp [read, hpathItems, hoperationItems, hpathValues, hoperationValues, hpathRead,
    hoperationRead, bind, Except.bind, pure, Except.pure]

/-! ## Names -/

/-- Names are added in the order of their first appearance, unless they are there already. -/
theorem foldl_addNew_eq {α : Type} (f : α → String) (items : List α) (names : List String) :
    items.foldl (fun ns x => addNew ns (f x)) names =
      names ++ ((items.map f).filter (· ∉ names)).eraseDups := by
  induction items generalizing names with
  | nil => simp
  | cons x xs ih =>
    rw [List.foldl_cons, ih, addNew, List.map_cons]
    split
    · next h => rw [List.filter_cons_of_neg (by simpa using h)]
    · next h =>
      have hrest : (xs.map f).filter (· ∉ names ++ [f x]) =
          ((xs.map f).filter (· ∉ names)).filter fun name => !name == f x := by
        rw [List.filter_filter]
        refine List.filter_congr fun name _ => ?_
        rw [Bool.eq_iff_iff]
        simp [and_comm]
      rw [List.filter_cons_of_pos (by simpa using h), List.eraseDups_cons, hrest,
        List.append_assoc, List.singleton_append]

theorem namesIn_map_ofTexts (declared : List (String × String)) (location : String) :
    namesIn (declared.map ofTexts) location = (namesAt location declared).eraseDups := by
  have hfilter : (declared.map ofTexts).filter
      (fun p => p.location = .text location ∧ p.name.isTruthy) =
        (declared.filter fun p => p.2 = location ∧ p.1 ≠ "").map ofTexts := by
    rw [List.filter_map]
    congr 1
    refine List.filter_congr fun p _ => ?_
    simp [ofTexts, Scalar.isTruthy]
  rw [namesIn, hfilter, foldl_addNew_eq, List.nil_append, List.map_map,
    List.filter_eq_self.2 fun _ _ => decide_eq_true List.not_mem_nil]
  rfl

theorem mem_namesAt {declared : List (String × String)} {location name : String} :
    name ∈ namesAt location declared ↔ name ≠ "" ∧ (name, location) ∈ declared := by
  simp only [namesAt, List.mem_map, List.mem_filter, decide_eq_true_eq]
  constructor
  · rintro ⟨⟨_, _⟩, ⟨hmem, rfl, hne⟩, rfl⟩
    exact ⟨hne, hmem⟩
  · rintro ⟨hne, hmem⟩
    exact ⟨(name, location), ⟨hmem, rfl, hne⟩, rfl⟩

theorem eraseDups_append_of_disjoint {names others : List String}
    (h : ∀ name ∈ others, name ∉ names) :
    (names ++ others).eraseDups = names.eraseDups ++ others.eraseDups := by
  rw [List.eraseDups_append]
  have hkept : others.removeAll names = others := by
    simpa [List.removeAll, List.filter_eq_self] using h
  rw [hkept]

theorem namesAt_append (location : String) (declared others : List (String × String)) :
    namesAt location (declared ++ others) =
      namesAt location declared ++ namesAt location others := by
  simp [namesAt]

theorem collects_namesIn (ofPath ofOperation : List (String × String)) (location : String) :
    Collects ofPath ofOperation location
      (namesIn ((ofPath.filter (· ∉ ofOperation) ++ ofOperation).map ofTexts) location) := by
  have hdisjoint : ∀ name ∈ namesAt location ofOperation,
      name ∉ namesAt location (ofPath.filter (· ∉ ofOperation)) := by
    intro name hname hother
    have hfiltered := (mem_namesAt.1 hother).2
    exact of_decide_eq_true (List.mem_filter.1 hfiltered).2 (mem_namesAt.1 hname).2
  have heq : namesIn ((ofPath.filter (· ∉ ofOperation) ++ ofOperation).map ofTexts) location =
      (namesAt location (ofPath.filter (· ∉ ofOperation))).eraseDups ++
        (namesAt location ofOperation).eraseDups := by
    rw [namesIn_map_ofTexts, namesAt_append, eraseDups_append_of_disjoint hdisjoint]
  refine ⟨nodup_namesIn _ _, fun name => ?_, heq⟩
  rw [heq, List.mem_append, List.mem_eraseDups, List.mem_eraseDups, mem_namesAt, mem_namesAt,
    ← and_or_left, List.mem_filter, decide_eq_true_iff]
  -- a parameter of the path that is dropped is one of the operation
  refine and_congr_right fun _ => ?_
  by_cases h : (name, location) ∈ ofOperation
  · simp [h]
  · simp [h]

end Parameter

namespace Operation

open Parameter

/-- **The names of parameters**: with lists of parameters of which every item stands for something,
and for an object only with a name and a location that are texts, the parameters of an operation are
read. For each location the operation gets every name that its path or itself declares there, and no
other, each once: those of the path that it does not declare again, then its own. Its path
parameters go on with the placeholders of its path that are not declared, in the order of their
first appearance. -/
theorem parameters_of_read {around : Surroundings} {path : String} {method : Method}
    {fields : Fields} {pathItems items : List Value} {ofPath ofOperation : List (String × String)}
    (hpathItems : Value.itemsOrNone (around.pathItem.field? "parameters") = .ok pathItems)
    (hitems : Value.itemsOrNone (fields.field? "parameters") = .ok items)
    (hpath : Lists around.components pathItems ofPath)
    (hoperation : Lists around.components items ofOperation) :
    let relative := Path.relativeTo around.basePath path.toList
    ∃ query declared undeclared, Collects ofPath ofOperation "query" query ∧
      Collects ofPath ofOperation "path" declared ∧
      undeclared = (((Path.placeholders relative).map String.ofList).filter
        (· ∉ declared)).eraseDups ∧
      (declared ++ undeclared).Nodup ∧
      (∃ parameters, Parameter.read around.components (around.pathItem.field? "parameters")
          (fields.field? "parameters") = .ok parameters ∧
        namesIn parameters "query" = query ∧
        pathNames parameters relative = declared ++ undeclared) ∧
      ∀ operation, (read around path method fields).outcome = .ok operation →
        operation.queryParams = query ∧ operation.pathParams = declared ++ undeclared := by
  intro relative
  have hread := read_of_lists hpathItems hitems hpath hoperation
  have hnames := foldl_addNew_eq String.ofList (Path.placeholders relative)
    (namesIn ((ofPath.filter (· ∉ ofOperation) ++ ofOperation).map ofTexts) "path")
  refine ⟨_, _, _, collects_namesIn ofPath ofOperation "query",
    collects_namesIn ofPath ofOperation "path", rfl, ?_, ⟨_, hread, rfl, hnames⟩, ?_⟩
  · rw [← hnames]
    exact nodup_pathNames _ relative
  · intro operation hok
    obtain ⟨parameters, _, _, _, hparameters, -, -, -, rfl⟩ := exists_of_read hok
    cases hread.symm.trans hparameters
    exact ⟨rfl, hnames⟩

/-- A parameter as it is written. -/
def written (name location : String) : Value :=
  .object [(.text "name", .text name), (.text "in", .text location)]

/-- Three parameters, one by a pointer. -/
def shelfParameters : List Value :=
  [written "id" "path", .object [(.text "$ref", .text "#/components/parameters/Limit")],
    written "id" "query"]

/-- A path that declares the three parameters. -/
def shelf : Surroundings where
  pathItem := [(.text "parameters", .list shelfParameters)]
  components := .object [(.text "parameters", .object [(.text "Limit", written "limit" "query")])]
  basePath := []
  space := Contract.schemasSpace

/-- The operation declares one parameter again and another twice, and has an item that is no
object; its path has a placeholder that is not declared. -/
theorem parameters_of_read_shelf :
    let items : List Value :=
      [written "limit" "query", .text "none", written "page" "query", written "page" "query"]
    let fields : Fields := [(.text "parameters", .list items)]
    ∃ parameters, Parameter.read shelf.components (shelf.pathItem.field? "parameters")
        (fields.field? "parameters") = .ok parameters ∧
      namesIn parameters "query" = ["id", "limit", "page"] ∧
      pathNames parameters (Path.relativeTo [] "/\x7bid\x7d/\x7bpart\x7d/\x7bpart\x7d".toList) =
        ["id", "part"] := by
  intro items fields
  have hpath : Lists shelf.components shelfParameters
      [("id", "path"), ("limit", "query"), ("id", "query")] :=
    .parameter rfl rfl rfl (.parameter rfl rfl rfl (.parameter rfl rfl rfl .nil))
  have hoperation : Lists shelf.components items
      [("limit", "query"), ("page", "query"), ("page", "query")] :=
    .parameter rfl rfl rfl (.other rfl nofun (.parameter rfl rfl rfl (.parameter rfl rfl rfl .nil)))
  obtain ⟨query, declared, undeclared, hquery, hdeclared, hundeclared, -,
    ⟨parameters, hread, hnames, hpathNames⟩, -⟩ := @parameters_of_read shelf
      "/\x7bid\x7d/\x7bpart\x7d/\x7bpart\x7d" .get fields _ _ _ _ rfl rfl hpath hoperation
  refine ⟨parameters, hread, ?_, ?_⟩
  · rw [hnames, hquery.eq]
    decide +kernel
  · refine hpathNames.trans ?_
    rw [hundeclared, hdeclared.eq]
    decide +kernel

end Operation

end ApiContract
