import ApiContract.Json.Literal
import ApiContract.Text.Case

/-!
# Names of the generated code

Names of a description are free texts; names of TypeScript code are not. `ofText` keeps a text that
can be a name and joins the words of any other; `argument`, `typeAlias` and `validatorName` add what
the place of the name asks for. `collisions` lists the schema names that fall together.

A text is taken as a name if it is one in full (`isName`), or if it is one but for a line feed at
its end (`isAccepted`).

Main facts: `isPart_of_isStart`, `isAccepted_of_isName`, and an example for every rule.
-/

namespace ApiContract.Identifier

/-- A character that may begin a name. -/
def isStart (c : Char) : Bool :=
  c.isAlpha || c == '_' || c == '$'

/-- A character that may stand inside a name. -/
def isPart (c : Char) : Bool :=
  c.isAlphanum || c == '_' || c == '$'

/-- A text that is a name in full. -/
def isName : List Char → Bool
  | [] => false
  | c :: cs => isStart c && cs.all isPart

/-- A text that is kept as a name: one that is a name in full, or but for a line feed at its end. -/
def isAccepted (text : List Char) : Bool :=
  isName text || (text.getLast? == some '\n' && isName text.dropLast)

/-- The words that cannot name a binding in a module of strict code. -/
def reserved : List String := [
  "arguments", "await", "break", "case", "catch", "class", "const", "continue", "debugger",
  "default", "delete", "do", "else", "enum", "eval", "export", "extends", "false", "finally", "for",
  "function", "if", "implements", "import", "in", "instanceof", "interface", "let", "new", "null",
  "package", "private", "protected", "public", "return", "static", "super", "switch", "this",
  "throw", "true", "try", "typeof", "var", "void", "while", "with", "yield"]

/-- The names of the predefined types, which no alias can have. -/
def typeKeywords : List String := [
  "any", "bigint", "boolean", "never", "number", "object", "string", "symbol", "undefined",
  "unknown"]

/-- The arguments that every generated function may declare itself. -/
def ownArguments : List String := ["params", "body", "options"]

/-- The runs of ASCII letters and digits in a text. -/
def alphanumericWords (text : List Char) : List (List Char) :=
  (Text.pieces (fun c => !c.isAlphanum) text).filter (· ≠ [])

/-- The words of a text, each with a capital, joined. -/
def camelWords (text : List Char) : List Char :=
  (alphanumericWords text).flatMap Text.upperFirst

/-- The words of a text as one name: the first as it is, the others with capitals, and an underscore
before a digit at the start; without words, an underscore alone. -/
def joined (text : List Char) : List Char :=
  match alphanumericWords text with
  | [] => ['_']
  | first :: others =>
    let name := first ++ others.flatMap Text.upperFirst
    if (name.head?.map Char.isDigit).getD false then '_' :: name else name

/-- A name with `mark` after it if it is one of the listed words. -/
def avoiding (words : List String) (mark name : List Char) : List Char :=
  if String.ofList name ∈ words then name ++ mark else name

/-- The name for a text: the text if it is accepted, else its words joined; an underscore follows a
reserved word. -/
def ofText (text : List Char) : List Char :=
  avoiding reserved ['_'] (if isAccepted text then text else joined text)

/-- The argument for a placeholder of a path. -/
def argument (text : List Char) : List Char :=
  avoiding ownArguments "Param".toList (ofText text)

/-- The type alias for a schema. -/
def typeAlias (text : List Char) : List Char :=
  avoiding typeKeywords ['_'] (ofText text)

/-- The constant that holds the validator of a schema. -/
def validatorName (text : List Char) : List Char :=
  typeAlias text ++ "Schema".toList

/-- The key of an object for a property: an accepted text as it is, any other as a literal. -/
def propertyKey (text : List Char) : List Char :=
  if isAccepted text then text else Json.encode text

/-- The type alias for a schema name. -/
def aliasOf (name : String) : String :=
  String.ofList (typeAlias name.toList)

/-- The validator constant for a schema name. -/
def validatorOf (name : String) : String :=
  String.ofList (validatorName name.toList)

/-- Names filed under their aliases, the aliases in order of first appearance. -/
def fileUnder (groups : List (String × List String)) (name : String) :
    List (String × List String) :=
  match groups with
  | [] => [(aliasOf name, [name])]
  | (key, members) :: rest =>
    if key = aliasOf name then (key, members ++ [name]) :: rest
    else (key, members) :: fileUnder rest name

/-- The aliases that two or more of the names have, each with these names in order. -/
def collisions (names : List String) : List (String × List String) :=
  (names.foldl fileUnder []).filter fun (_, members) => 1 < members.length

theorem isName_cons (c : Char) (cs : List Char) :
    isName (c :: cs) = (isStart c && cs.all isPart) := rfl

theorem isPart_of_isStart {c : Char} (h : isStart c) : isPart c := by
  simp only [isStart, isPart, Char.isAlphanum, Bool.or_eq_true] at h ⊢
  exact h.imp_left (Or.imp_left Or.inl)

theorem isAccepted_of_isName {text : List Char} (h : isName text) : isAccepted text := by
  simp [isAccepted, h]

example : ofText "list-users".toList = "listUsers".toList := by decide +kernel
example : ofText "2nd".toList = "_2nd".toList ∧ ofText "--".toList = "_".toList := by decide +kernel
example : ofText "delete".toList = "delete_".toList := by decide +kernel
example : ofText "a\n".toList = "a\n".toList := by decide +kernel
example : argument "body".toList = "bodyParam".toList := by decide +kernel
example : typeAlias "string".toList = "string_".toList := by decide +kernel
example : propertyKey "x-rate".toList = "\"x-rate\"".toList := by decide +kernel
example : collisions ["Pet-Category", "PetCategory", "Tag"] =
    [("PetCategory", ["Pet-Category", "PetCategory"])] := by decide +kernel

end ApiContract.Identifier
