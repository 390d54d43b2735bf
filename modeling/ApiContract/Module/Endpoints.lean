import ApiContract.Contract
import ApiContract.Module.Basic
import ApiContract.Operation
import ApiContract.Text.Blank

/-!
# The module of functions

The module exports one function for each operation. Its arguments are the placeholders of the path,
the query parameters, the body if there is one, and the options of the request.

A comment before the function holds the summary, on one line, and the request. `commentText` keeps a
summary from closing the comment.
-/

namespace ApiContract.Module

/-- A text on one line of a comment: its words, with the mark that closes comments broken up. -/
def commentText (text : List Char) : List Char :=
  Text.replaceAll ['*', '/'] ['*', '\\', '/'] (Text.join [' '] (Text.words text))

/-- An argument of a function, with its type. -/
structure Argument where
  name : List Char
  optional : Bool
  type : List Char
  deriving DecidableEq, Repr

/-- An argument as it is declared. -/
def Argument.text (a : Argument) : List Char :=
  a.name ++ (if a.optional then ['?'] else []) ++ ": ".toList ++ a.type

/-- The type of the query parameters. -/
def queryType (names : List String) : List Char :=
  let entry (name : String) : List Char :=
    Identifier.propertyKey name.toList ++ "?: string".toList
  "\x7b ".toList ++ Text.join ", ".toList (names.map entry) ++ " \x7d".toList

/-- The arguments of the function of an operation. -/
def arguments (operation : Operation) : List Argument :=
  (operation.pathParams.map fun name =>
      ⟨Identifier.argument name.toList, false, "string".toList⟩) ++
    (if operation.queryParams = [] then []
      else [⟨"params".toList, true, queryType operation.queryParams⟩]) ++
    (match operation.requestBodyType with
      | some type => [⟨"body".toList, false, type.toList⟩]
      | none => []) ++
    [⟨"options".toList, false, "RequestOptions".toList⟩]

/-- The comment before a function. -/
def comment (operation : Operation) : List Char :=
  let summary := commentText ((operation.summary.getD "").toList)
  "/**\n".toList ++
    (if summary = [] then [] else " * ".toList ++ summary ++ "\n *\n".toList) ++
    " * `".toList ++ operation.method.wireName.toList ++ [' '] ++ operation.path.toList ++
    "`\n".toList ++
    (if operation.deprecated then " * @deprecated\n".toList else []) ++ " */\n".toList

/-- The lines that add the query parameters to the options. -/
def queryLines : List Char :=
  ("  if (params) \x7b\n" ++
    "    options.params = \x7b ...options.params, ...params \x7d;\n" ++
    "  \x7d\n\n").toList

/-- The function of an operation. -/
def function (operation : Operation) : List Char :=
  let response := operation.responseType.toList
  '\n' :: comment operation ++ "export async function ".toList ++ operation.identifier.toList ++
    ['('] ++ Text.join ", ".toList ((arguments operation).map Argument.text) ++
    "): Promise<ApiResponse<".toList ++ response ++ ">> \x7b\n".toList ++
    (if operation.queryParams = [] then [] else queryLines) ++
    "  return apiClient.".toList ++ operation.method.clientName.toList ++ ['<'] ++ response ++
    ">(`".toList ++ operation.urlTemplate.toList ++ ['`'] ++
    (if operation.requestBodyType.isSome then ", body".toList else []) ++
    ", options);\n\x7d\n".toList

/-- The text of the module of functions. -/
def endpoints (operations : List Operation) (baseUrl : String) : List Char :=
  heading ++ "import apiClient, \x7b ApiResponse, RequestOptions \x7d from \"".toList ++
    specifier clientFile ++ "\";\nimport * as Schemas from \"".toList ++ specifier schemasFile ++
    "\";\n\nexport const BASE_URL = ".toList ++ scriptLiteral baseUrl ++ ";\n".toList ++
    operations.flatMap function

example : commentText "a */ b\n\tc**/".toList = "a *\\/ b c**\\/".toList := by decide +kernel

end ApiContract.Module
