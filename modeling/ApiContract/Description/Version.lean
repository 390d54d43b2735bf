import ApiContract.Value
import ApiContract.Value.Text

/-!
# The version of a description

A description says by which version of OpenAPI it is written. Versions 3 are read.
-/

namespace ApiContract.Description

/-- Why a version is not read. -/
inductive VersionFault
  /-- The description is written by an older standard. -/
  | swagger (version : String)
  | missing
  | unsupported (version : String)
  deriving DecidableEq, Repr

/-- The message for a fault. -/
def VersionFault.message : VersionFault → String
  | swagger v =>
    "Swagger " ++ v ++ " is not supported. Only OpenAPI 3.x documents can be compiled. " ++
      "Consider converting with https://converter.swagger.io"
  | missing => "Missing 'openapi' field. Is this an OpenAPI 3.x document?"
  | unsupported v =>
    "Unsupported OpenAPI version: " ++ v ++ ". Only OpenAPI 3.x documents can be compiled."

/-- The version of a description, which must begin with a three and a point. -/
def standardVersion (fields : Fields) : Except VersionFault String :=
  match fields.field? "swagger" with
  | some v => .error (.swagger v.toText)
  | none =>
    match fields.field? "openapi" with
    | none | some .null => .error .missing
    | some v =>
      if "3.".toList.isPrefixOf v.toText.toList then .ok v.toText
      else .error (.unsupported v.toText)

end ApiContract.Description
