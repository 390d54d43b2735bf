import ApiContract.Text.Sorted
import ApiContract.Value

/-!
# Schemas

The shapes that a schema of a description can take. Every schema may also admit null. References
keep the name that they point to and are never followed here; `references` lists these names.

Main facts: the `simp` lemmas for `references`, one for each shape with parts.
-/

namespace ApiContract

/-- The ways in which a schema is composed of others. -/
inductive Composition
  | allOf
  | oneOf
  | anyOf
  | not
  deriving DecidableEq, Repr

/-- The key of a composition. -/
def Composition.name : Composition → String
  | allOf => "allOf"
  | oneOf => "oneOf"
  | anyOf => "anyOf"
  | not => "not"

/-- A schema. -/
inductive Schema
  | text (nullable : Bool) (format : Option String)
  | number (nullable : Bool) (integer : Bool)
  | boolean (nullable : Bool)
  | array (nullable : Bool) (items : Schema)
  /-- An object with its properties in order, the names of those that must be there, and the schema
  of all others. -/
  | object (nullable : Bool) (properties : List (String × Schema)) (required : List String)
      (additional : Option Schema)
  | reference (nullable : Bool) (target : String)
  | enumeration (nullable : Bool) (values : List Value)
  | composite (nullable : Bool) (composition : Composition) (members : List Schema)
  | unknown (nullable : Bool)

namespace Schema

/-- Whether a schema admits null. -/
def nullable : Schema → Bool
  | text n _ | number n _ | boolean n | array n _ | object n _ _ _ | reference n _
  | enumeration n _ | composite n _ _ | unknown n => n

mutual

/-- The names that a schema refers to, as often as it does. -/
def references : Schema → List String
  | reference _ target => [target]
  | array _ items => items.references
  | object _ properties _ additional =>
    referencesInProperties properties ++ referencesInOption additional
  | composite _ _ members => referencesInMembers members
  | _ => []

/-- The names that the schemas of properties refer to. -/
def referencesInProperties : List (String × Schema) → List String
  | [] => []
  | (_, schema) :: rest => schema.references ++ referencesInProperties rest

/-- The names that an optional schema refers to. -/
def referencesInOption : Option Schema → List String
  | none => []
  | some schema => schema.references

/-- The names that the members of a composition refer to. -/
def referencesInMembers : List Schema → List String
  | [] => []
  | schema :: rest => schema.references ++ referencesInMembers rest

end

theorem referencesInProperties_eq (properties : List (String × Schema)) :
    referencesInProperties properties = properties.flatMap fun p => p.2.references := by
  induction properties with
  | nil => rfl
  | cons p ps ih => simp [referencesInProperties, ih]

theorem referencesInMembers_eq (members : List Schema) :
    referencesInMembers members = members.flatMap references := by
  induction members with
  | nil => rfl
  | cons s ss ih => simp [referencesInMembers, ih]

@[simp] theorem references_reference (n : Bool) (target : String) :
    (reference n target).references = [target] := by
  simp [references]

@[simp] theorem references_array (n : Bool) (items : Schema) :
    (array n items).references = items.references := by
  simp [references]

@[simp] theorem references_composite (n : Bool) (c : Composition) (members : List Schema) :
    (composite n c members).references = members.flatMap references := by
  simp [references, referencesInMembers_eq]

@[simp] theorem references_object (n : Bool) (properties : List (String × Schema))
    (required : List String) (additional : Option Schema) :
    (object n properties required additional).references =
      (properties.flatMap fun p => p.2.references) ++
        (additional.map references).getD [] := by
  cases additional <;> simp [references, referencesInProperties_eq, referencesInOption]

/-- The names that a schema refers to, each once and in order. -/
def dependencies (schema : Schema) : List String :=
  Text.distinct schema.references

theorem mem_dependencies {schema : Schema} {name : String} :
    name ∈ schema.dependencies ↔ name ∈ schema.references :=
  Text.mem_distinct

end Schema

end ApiContract
