import ApiContract.Description
import ApiContract.Description.Fault
import ApiContract.Schema.Reader

/-!
# Reading descriptions

`Description.ofFields` reads the parts of a description. A part that is missing, null or empty is
taken as absent; a path that is no object is left out. Names must be texts, and all faults among
them are reported together: first those of schemas, then of paths and of components.
-/

namespace ApiContract.Description

/-- The entries that have names for keys, or the faults of the others below `place`. -/
def named (place : String) (entries : List (Scalar × α)) :
    Except (List Field.Fault) (List (String × α)) :=
  Schema.nameEntries place entries

/-- The fields of a path by their names. -/
def namedPath (key : Scalar) (fields : Fields) :
    Except (List Field.Fault) (List (String × Value)) :=
  (named (Field.keyPlace key) fields).mapError fun faults =>
    faults.map (Field.Fault.within ["paths"])

/-- The faults of a result. -/
def faultsOf (result : Except (List Field.Fault) α) : List Field.Fault :=
  match result with
  | .ok _ => []
  | .error faults => faults

/-- The paths by their texts. The faults of a path are those of its text and of its fields. -/
def namedPaths (paths : List (Scalar × Fields)) :
    Except (List Field.Fault) (List (String × List (String × Value))) :=
  let faults := paths.flatMap fun (key, fields) =>
    (Field.keyFaults [key]).map (Field.Fault.within ["paths"]) ++ faultsOf (namedPath key fields)
  match faults with
  | [] => do named "paths" (← paths.mapM fun (key, fields) => (key, ·) <$> namedPath key fields)
  | faults => .error faults

/-- The paths that are objects. -/
def objectEntries (fields : Fields) : List (Scalar × Fields) :=
  fields.filterMap fun
    | (key, .object inner) => some (key, inner)
    | _ => none

/-- The text of a field, in its own words whatever it holds; `default` if there is none. -/
def textOr (default name : String) (fields : Fields) : String :=
  match fields.field? name with
  | some v => v.toText
  | none => default

/-- The description that the fields of a document hold, with the version that it is written by. -/
def ofFields (openapi : String) (fields : Fields) : Trace Fault Description := do
  let components ← .ofExcept (Value.fieldsOrNone (fields.field? "components"))
  let paths ← .ofExcept (Value.fieldsOrNone (fields.field? "paths"))
  let info ← .ofExcept (Value.fieldsOrNone (fields.field? "info"))
  let servers ← .ofExcept (Value.itemsOrNone (fields.field? "servers"))
  let rawSchemas ← .ofExcept (Value.fieldsOrNone (components.field? "schemas"))
  let schemas ← rawSchemas.mapM fun (key, value) =>
    (key, ·) <$> (Schema.read value).mapError Fault.fields
  let schemas := named "schemas" schemas
  let paths := namedPaths (objectEntries paths)
  let components := named "components" components
  match schemas, paths, components with
  | .ok schemas, .ok paths, .ok components =>
    return {
      title := textOr "Untitled API" "title" info
      version := textOr "0.0.0" "version" info
      openapi
      servers := (Value.objectsAmong servers).map (textOr "/" "url")
      schemas, paths, components }
  | schemas, paths, components =>
    .fail (.fields (faultsOf schemas ++ faultsOf paths ++ faultsOf components))

end ApiContract.Description
