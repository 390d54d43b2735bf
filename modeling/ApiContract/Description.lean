import ApiContract.Schema

/-!
# Descriptions

A description of an API: its schemas by name, and its paths and reusable components as they were
written.
-/

namespace ApiContract

/-- A description of an API. -/
structure Description where
  title : String
  version : String
  /-- The version of the standard by which it is written. -/
  openapi : String
  servers : List String
  schemas : List (String × Schema)
  /-- The paths, each with its fields. -/
  paths : List (String × List (String × Value))
  components : List (String × Value)

namespace Description

/-- The texts of the paths. -/
def pathTexts (d : Description) : List (List Char) :=
  d.paths.map fun entry => entry.1.toList

/-- The components as a value. -/
def componentsValue (d : Description) : Value :=
  .object (d.components.map fun (name, v) => (.text name, v))

end Description

end ApiContract
