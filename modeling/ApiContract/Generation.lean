import ApiContract.Graph.Order
import ApiContract.Module.Client
import ApiContract.Module.Endpoints
import ApiContract.Module.Schemas
import ApiContract.Operation.Reader

/-!
# Generating the modules

`generate` compiles a description into the texts of the three modules. It reports what it does and
stops at the first of: a reference to an undeclared schema, if these are to be strict; schemas that
refer to each other in a cycle; an operation that cannot be read.

The order lists declared schemas only, so every name in it has its block.
-/

namespace ApiContract

/-- The modules and what they were written from. -/
structure Sources where
  schemas : List Char
  client : List Char
  endpoints : List Char
  schemaOrder : List String
  operations : List Operation
  baseUrl : String

namespace Sources

/-- The files of the modules with their texts, in the order of writing. -/
def files (s : Sources) : List (String × List Char) :=
  [(Module.schemasFile, s.schemas), (Module.clientFile, s.client),
    (Module.endpointsFile, s.endpoints)]

end Sources

namespace Generation

/-- Why nothing can be generated. -/
inductive Fault
  /-- Schemas refer to each other in a cycle. -/
  | circular (names : List String)
  /-- Schemas are referred to and not declared. -/
  | unresolved (names : List String)
  /-- The structure of the description is broken. -/
  | description (fault : Description.Fault)
  deriving DecidableEq, Repr

/-- The message about schemas in a cycle. -/
def circularText (names : List String) : String :=
  "Circular dependency detected between schemas: " ++ Text.commaSeparated names

/-- The message about schemas that are not declared. -/
def unresolvedText (names : List String) : String :=
  "Unresolved schema references: " ++ Text.commaSeparated names

/-- A list of names inside a line of the log. -/
def namesText (names : List String) : String :=
  (Value.list (names.map Value.text)).quoted

/-- Reports the references to undeclared schemas, or refuses them. -/
def checkReferences (strict : Bool) (names : List String) : Trace Fault Unit :=
  if names = [] then pure ()
  else if strict then .fail (.unresolved names)
  else do
    .note .generation ("Dangling references: " ++ namesText names)
    .report .warning
      ("Unresolved schema references (emitted as-is): " ++ Text.commaSeparated names)

/-- The order of the schemas, every one after those it refers to. -/
def emissionOrder (graph : Graph) : Trace Fault (List String) := do
  let order ← .ofExcept (graph.emission.mapError .circular)
  .note .ordering ("Schema emission order: " ++ namesText order)
  return order

/-- Reports the schemas that fall together under one name. -/
def reportCollisions : List (String × List String) → Trace Fault Unit
  | [] => pure ()
  | (name, members) :: rest => do
    .report .warning ("Schemas " ++ Text.commaSeparated members ++
      " all map to the TypeScript name " ++ name ++ " (duplicate declarations)")
    reportCollisions rest

/-- The base URL of the client: an origin without slashes at its end, and the base path. -/
def clientBase (origin : Option String) (basePath : List Char) : String :=
  String.ofList (Text.dropEndWhile (· == '/') (origin.getD "").toList ++ basePath)

/-- A count in parentheses. -/
def counted (what : String) (n : Nat) : String :=
  what ++ " (" ++ toString n ++ ")"

/-- The modules for a description. -/
def generate (d : Description) (origin : Option String) (strict : Bool) : Trace Fault Sources := do
  .report .progress "Generating schemas..."
  let graph := Graph.ofSchemas d.schemas
  checkReferences strict graph.dangling
  let order ← emissionOrder graph
  reportCollisions (Identifier.collisions (d.schemas.map Prod.fst))
  let blocks := order.filterMap (Module.block? d.schemas)
  .report .success (counted "Schemas generated" order.length)
  .report .progress "Generating client..."
  let basePath := Path.basePath d.pathTexts
  let baseUrl := clientBase origin basePath
  .report .success "Client generated"
  .report .progress "Generating endpoints..."
  let operations ← (Operation.readAll d basePath).mapError .description
  .report .success (counted "Endpoints generated" operations.length)
  .report .debug ("Base path: " ++ if basePath = [] then "(none)" else String.ofList basePath)
  return {
    schemas := Module.schemas blocks
    client := Module.client baseUrl
    endpoints := Module.endpoints operations (String.ofList basePath)
    schemaOrder := order
    operations, baseUrl }

end Generation

end ApiContract
