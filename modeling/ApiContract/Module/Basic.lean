import ApiContract.Json.Literal

/-!
# Modules of TypeScript

What the generated modules share: their file names, their first line, and the form in which a text
of the description stands in them.
-/

namespace ApiContract.Module

/-- The file of the schemas module. -/
def schemasFile : String := "schemas.api.ts"

/-- The file of the client module. -/
def clientFile : String := "client.api.ts"

/-- The file of the module of functions. -/
def endpointsFile : String := "endpoints.api.ts"

/-- The name by which a module imports a file beside it. -/
def specifier (file : String) : List Char :=
  let name := file.toList
  "./".toList ++ if ".ts".toList.isSuffixOf name then name.take (name.length - 3) else name

/-- The first line of every module. -/
def heading : List Char := "// Generated by zodgen. Do not edit by hand.\n".toList

/-- A character of a literal that also a page of markup can hold. -/
def safeChar (c : Char) : List Char :=
  if c = '<' ∨ c = '>' ∨ c = '&' ∨ c = '\'' then Json.escapeUnit c.toNat else [c]

/-- A text as a literal of a script. -/
def scriptLiteral (text : String) : List Char :=
  (Json.encode text.toList).flatMap safeChar

example : specifier clientFile = "./client.api".toList := by decide +kernel
example : scriptLiteral "<a'&\">" = "\"\\u003ca\\u0027\\u0026\\\"\\u003e\"".toList := by
  decide +kernel

end ApiContract.Module
