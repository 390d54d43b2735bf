import ApiContract.Contract
import ApiContract.Description.Fault
import ApiContract.Schema.Reader
import ApiContract.Text.Blank
import ApiContract.Text.Case

/-!
# Contents of requests and responses

A content lists schemas by media types. `contract` takes the first of the supported media types that
has a schema. The response of an operation is that of the first success status it declares.
-/

namespace ApiContract.Content

open Description

/-- The statuses of success, the first one present counts. -/
def successStatuses : List String := ["200", "201", "204"]

/-- The supported media types, the first one with a schema counts. -/
def mediaTypes : List String := ["application/pdf", "application/octet-stream", "application/json"]

/-- A media type without parameters, blanks around it and capitals. -/
def mediaType (key : List Char) : List Char :=
  Text.lower (Text.trim (key.takeWhile (· ≠ ';')))

/-- The value under a media type: that of the first key which is this media type. -/
def media? (content : Fields) (type : String) : Option Value :=
  (content.find? fun field => mediaType field.1.toText.toList == type.toList).map Prod.snd

/-- The schema of the first supported media type that has one. -/
def schema? (content : Fields) : Option Fields :=
  mediaTypes.findSome? fun type =>
    match media? content type with
    | some (.object media) => Fields.object? media "schema"
    | _ => none

/-- The contract of a content, permissive if no supported media type has a schema. -/
def contract (space : List Char) (content : Fields) : Trace Fault Contract :=
  match schema? content with
  | some schema =>
    Contract.ofSchema space <$> (Schema.read (.object schema)).mapError Fault.fields
  | none => pure .permissive

/-- The response under a status: the last one, for several keys may read as one status. -/
def response? (responses : Fields) (status : String) : Option Value :=
  (responses.reverse.find? fun field => field.1.toText == status).map Prod.snd

/-- The contract of the responses of an operation. -/
def ofResponses (space : List Char) (components : Value) (responses : Fields) :
    Trace Fault Contract :=
  match successStatuses.findSome? (response? responses) with
  | none => pure .permissive
  | some response => do
    let response ← .ofExcept ((Pointer.deref response components).mapError .pointer)
    match response with
    | .object fields =>
      match Fields.object? fields "content" with
      | none | some [] => return .void
      | some content => contract space content
    | _ => return .permissive

/-- The contract of the body of a request. -/
def ofRequestBody (space : List Char) (components : Value) (body : Option Value) :
    Trace Fault Contract := do
  let body ← .ofExcept ((Pointer.deref (body.getD .null) components).mapError .pointer)
  match body with
  | .object fields =>
    match Fields.object? fields "content" with
    | some content => contract space content
    | none => return .permissive
  | _ => return .permissive

end ApiContract.Content
