import ApiContract.Method

/-!
# Operations

An operation is a method on a path, with all that its function in the generated code needs.
-/

namespace ApiContract

/-- A method on a path. -/
structure Operation where
  path : String
  method : Method
  /-- The name that the description gives to the operation. -/
  operationId : Option String
  /-- The name of the function. -/
  identifier : String
  pathParams : List String
  queryParams : List String
  /-- The type of the body, for methods with a body. -/
  requestBodyType : Option String
  responseType : String
  /-- The path relative to the base path, with a substitution for every placeholder. -/
  urlTemplate : String
  summary : Option String
  deprecated : Bool
  deriving DecidableEq, Repr

end ApiContract
