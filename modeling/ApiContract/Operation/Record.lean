import ApiContract.Field.Checked
import ApiContract.Operation

/-!
# Operations as records

An operation can be given ready-made, as a record of its fields. The path, the method, the name of
the function and the template have to be there; fields that an operation does not have do not count.
-/

namespace ApiContract.Operation

open ApiContract.Field

/-- A method by its name. -/
def methodField : Value → Checked Method
  | .text s => .ofReason (match Method.ofName? s with
    | some m => .ok m
    | none => .error .choice)
  | _ => .ofReason (.error .choice)

/-- The operation of a record. -/
def ofRecord (fields : Fields) : Checked Operation :=
  Operation.mk <$> required fields "path" text
    <*> required fields "method" methodField
    <*> optional fields "operation_id" none (orNull text)
    <*> required fields "identifier" text
    <*> optional fields "path_params" [] (listOf text)
    <*> optional fields "query_params" [] (listOf text)
    <*> optional fields "request_body_type" none (orNull text)
    <*> optional fields "response_type" "any" text
    <*> required fields "url_template" text
    <*> optional fields "summary" none (orNull text)
    <*> optional fields "deprecated" false truth

end ApiContract.Operation
