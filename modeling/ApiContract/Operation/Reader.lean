import ApiContract.Description
import ApiContract.Operation
import ApiContract.Operation.Content
import ApiContract.Operation.Parameters
import ApiContract.Path

/-!
# Reading operations

`Operation.read` reads one operation of a path. `Operation.readAll` reads those of all paths and
gives every one a name of its own: a name that is taken gets the least number from 2 on with which
it is free.

Main facts: `freshFrom_not_mem` and `freeName_not_mem` (the name given to an operation is free).
-/

namespace ApiContract.Operation

open Description

/-- The names that the module of functions binds itself. -/
def moduleNames : List String :=
  ["apiClient", "ApiResponse", "RequestOptions", "Schemas", "BASE_URL"]

/-- The path parameters: the declared ones, and the placeholders that are not declared. -/
def pathNames (parameters : List Parameter) (path : List Char) : List String :=
  (Path.placeholders path).foldl (fun names p => Parameter.addNew names (String.ofList p))
    (Parameter.namesIn parameters "path")

/-- The name that the description gives to an operation. -/
def explicitId (fields : Fields) : Option String :=
  (fields.text? "operationId").filter (· ≠ "")

/-- Where an operation stands: the fields of its path, the components, the base path and the
namespace of the types of schemas. -/
structure Surroundings where
  pathItem : Fields
  components : Value
  basePath : List Char
  space : List Char

/-- The operation of a method on a path. -/
def read (around : Surroundings) (path : String) (method : Method) (fields : Fields) :
    Trace Fault Operation := do
  let relative := Path.relativeTo around.basePath path.toList
  let explicit := explicitId fields
  let identifier := match explicit with
    | some name => Identifier.ofText name.toList
    | none => Path.operationName method.name.toList relative
  let parameters ← .ofExcept (Parameter.read around.components
    (around.pathItem.field? "parameters") (fields.field? "parameters"))
  let body ← if method.hasBody then
      some <$> Content.ofRequestBody around.space around.components (fields.field? "requestBody")
    else pure none
  let responses ← .ofExcept (Value.fieldsOrNone (fields.field? "responses"))
  let response ← Content.ofResponses around.space around.components responses
  return {
    path, method
    operationId := explicit
    identifier := String.ofList identifier
    pathParams := pathNames parameters relative
    queryParams := Parameter.namesIn parameters "query"
    requestBodyType := body.map fun c => String.ofList c.type
    responseType := String.ofList response.type
    urlTemplate := String.ofList (Path.template relative)
    summary := fields.text? "summary"
    deprecated := fields.isTrue "deprecated" }

/-- The name with the least number from `n` on that is free. A name found taken need not be looked
at again, so the search ends. -/
def freshFrom (taken : List String) (name : String) (n : Nat) : String :=
  let candidate := name ++ toString n
  if candidate ∈ taken then freshFrom (taken.erase candidate) name (n + 1) else candidate
termination_by taken.length
decreasing_by
  rename_i h
  have hl := List.length_erase_of_mem h
  have hp := List.length_pos_of_mem h
  exact hl ▸ Nat.sub_lt hp Nat.one_pos

theorem append_toString_inj {name : String} {m n : Nat}
    (h : name ++ toString m = name ++ toString n) : m = n := by
  have hl := congrArg String.toList h
  simp only [String.toList_append, List.append_cancel_left_eq, Nat.toString_eq_repr] at hl
  have hd : Nat.toDigits 10 m = Nat.toDigits 10 n := by simpa using hl
  rw [← Nat.ofDigitChars_toDigits (b := 10) (n := m) (by decide) (by decide), hd,
    Nat.ofDigitChars_toDigits (by decide) (by decide)]

/-- A fresh name ends in a number from `n` on. -/
theorem exists_freshFrom_eq (taken : List String) (name : String) (n : Nat) :
    ∃ m, n ≤ m ∧ freshFrom taken name n = name ++ toString m := by
  fun_induction freshFrom taken name n with
  | case1 taken n candidate h ih =>
    obtain ⟨m, hm, he⟩ := ih
    exact ⟨m, by omega, he⟩
  | case2 taken n candidate h => exact ⟨n, Nat.le_refl n, rfl⟩

theorem freshFrom_not_mem (taken : List String) (name : String) (n : Nat) :
    freshFrom taken name n ∉ taken := by
  fun_induction freshFrom taken name n with
  | case1 taken n candidate h ih =>
    obtain ⟨m, hm, he⟩ := exists_freshFrom_eq (taken.erase candidate) name (n + 1)
    have hne : freshFrom (taken.erase candidate) name (n + 1) ≠ candidate := fun hc => by
      have := append_toString_inj (he.symm.trans hc)
      omega
    exact fun hmem => ih ((List.mem_erase_of_ne hne).2 hmem)
  | case2 taken n candidate h => exact h

/-- A free name for an operation: its own, or one with a number. -/
def freeName (taken : List String) (name : String) : String :=
  if name ∈ taken then freshFrom taken name 2 else name

theorem freeName_not_mem (taken : List String) (name : String) : freeName taken name ∉ taken := by
  unfold freeName
  split
  · exact freshFrom_not_mem taken name 2
  · assumption

/-- An operation of a description, not yet read. -/
structure Place where
  path : String
  pathItem : Fields
  method : Method
  fields : Fields

/-- The operations of a description: paths in order, and for each the methods in their order. -/
def places (d : Description) : List Place :=
  d.paths.flatMap fun (path, entries) =>
    let item : Fields := entries.map fun (name, v) => (.text name, v)
    Method.all.filterMap fun method =>
      (item.object? method.name).map fun fields => ⟨path, item, method, fields⟩

/-- Reads operations in order; `taken` are the names already given. -/
def readPlaces (components : Value) (basePath : List Char) :
    List String → List Place → Trace Fault (List Operation)
  | _, [] => pure []
  | taken, place :: rest => do
    let operation ← read ⟨place.pathItem, components, basePath, Contract.schemasSpace⟩ place.path
      place.method place.fields
    let name := freeName taken operation.identifier
    if name ≠ operation.identifier then
      .note .operations ("Identifier " ++ operation.identifier ++ " already used, renaming " ++
        place.method.name ++ " " ++ place.path ++ " to " ++ name)
    let others ← readPlaces components basePath (name :: taken) rest
    return { operation with identifier := name } :: others

/-- The operations of a description. -/
def readAll (d : Description) (basePath : List Char) : Trace Fault (List Operation) :=
  readPlaces d.componentsValue basePath moduleNames (places d)

end ApiContract.Operation
