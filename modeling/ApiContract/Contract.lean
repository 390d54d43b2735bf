import ApiContract.Identifier
import ApiContract.Schema
import ApiContract.Text.Pieces

/-!
# Contracts: validators and types

A schema becomes a `Contract`, the text of a validator that checks values when a program runs
together with the text of the type that describes the same values. Both are built side by side.
References are never followed: they become the names that the referenced schema is given.

Compositions and unknown schemas become the contract that accepts anything, and so does a list of
values among which one has no literal. Objects are written over several lines, indented by their
depth.

The examples show a nullable list, an object and a union of literals.
-/

namespace ApiContract

/-- A validator and the type of the values that it accepts. -/
structure Contract where
  validator : List Char
  type : List Char
  deriving DecidableEq, Repr

namespace Contract

/-- The contract that accepts anything. -/
def permissive : Contract := ⟨"z.any()".toList, "any".toList⟩

/-- The contract of a response without content. -/
def void : Contract := ⟨"z.void()".toList, "void".toList⟩

/-- The contract that also accepts null. -/
def orNull (nullable : Bool) (c : Contract) : Contract :=
  if nullable then ⟨c.validator ++ ".nullable()".toList, c.type ++ " | null".toList⟩ else c

/-- The contract of a text; the content of a file is no text. -/
def text (format : Option String) : Contract :=
  if format = some "binary" then ⟨"z.instanceof(Blob)".toList, "Blob".toList⟩
  else ⟨"z.string()".toList, "string".toList⟩

/-- The contract of a number. -/
def number (integer : Bool) : Contract :=
  ⟨if integer then "z.number().int()".toList else "z.number()".toList, "number".toList⟩

/-- The contract of a truth value. -/
def boolean : Contract := ⟨"z.boolean()".toList, "boolean".toList⟩

/-- The contract of a list. The brackets bind more strongly than the bar between alternatives, so
these are put in parentheses. -/
def array (items : Contract) : Contract :=
  ⟨"z.array(".toList ++ items.validator ++ [')'],
    (if Text.occursIn " | ".toList items.type then '(' :: items.type ++ [')'] else items.type) ++
      ['[', ']']⟩

/-- The contract of a referenced schema: the names that it is given. Its type is found in a
namespace. -/
def reference (space : List Char) (target : String) : Contract :=
  ⟨Identifier.validatorName target.toList, space ++ Identifier.typeAlias target.toList⟩

/-- The validator of one literal. -/
def literalValidator (literal : List Char) : List Char :=
  "z.literal(".toList ++ literal ++ [')']

/-- The contract of a list of values, if every one has a literal. -/
def enumeration? (values : List Value) : Option Contract := do
  let literals ← values.mapM Json.literal?
  let list := Text.join [',', ' ']
  let validator :=
    if values.all fun v => v.text?.isSome then "z.enum([".toList ++ list literals ++ "])".toList
    else match literals with
      | [literal] => literalValidator literal
      | _ => "z.union([".toList ++ list (literals.map literalValidator) ++ "])".toList
  return ⟨validator, Text.join " | ".toList literals⟩

/-- The contract of an object of which only the other properties have a schema. -/
def record (values : Contract) : Contract :=
  ⟨"z.record(z.string(), ".toList ++ values.validator ++ [')'],
    "Record<string, ".toList ++ values.type ++ ['>']⟩

/-- The blanks before a line at a depth. -/
def indent (depth : Nat) : List Char :=
  List.replicate (2 * depth) ' '

/-- One property, as a line of the validator and a line of the type. -/
def property (depth : Nat) (required : List String) (name : String) (c : Contract) :
    List Char × List Char :=
  let start := indent depth ++ Identifier.propertyKey name.toList
  if name ∈ required then
    (start ++ ": ".toList ++ c.validator ++ [','], start ++ ": ".toList ++ c.type ++ [';'])
  else
    (start ++ ": ".toList ++ c.validator ++ ".optional(),".toList,
      start ++ "?: ".toList ++ c.type ++ [';'])

/-- The contract of an object with properties. -/
def object (depth : Nat) (required : List String) (properties : List (String × Contract)) :
    Contract :=
  let lines := properties.map fun (name, c) => property depth required name c
  let close := '\n' :: indent (depth - 1) ++ ['\x7d']
  ⟨"z.object(\x7b\n".toList ++ Text.join ['\n'] (lines.map Prod.fst) ++ close ++ [')'],
    "\x7b\n".toList ++ Text.join ['\n'] (lines.map Prod.snd) ++ close⟩

mutual

/-- The contract of a schema whose lines stand at a depth; `space` is written before the types of
referenced schemas. -/
def atDepth (space : List Char) (depth : Nat) : Schema → Contract
  | .text nullable format => (text format).orNull nullable
  | .number nullable integer => (number integer).orNull nullable
  | .boolean nullable => boolean.orNull nullable
  | .array nullable items => (array (atDepth space depth items)).orNull nullable
  | .object nullable properties required additional =>
    (if properties.isEmpty then record (ofOption space depth additional)
    else object depth required (ofProperties space (depth + 1) properties)).orNull nullable
  | .reference nullable target => (reference space target).orNull nullable
  | .enumeration nullable values =>
    match enumeration? values with
    | some c => c.orNull nullable
    | none => permissive
  | .composite .. => permissive
  | .unknown _ => permissive

/-- The contract of an optional schema; without one anything is accepted. -/
def ofOption (space : List Char) (depth : Nat) : Option Schema → Contract
  | none => permissive
  | some schema => atDepth space depth schema

/-- The contracts of properties. -/
def ofProperties (space : List Char) (depth : Nat) :
    List (String × Schema) → List (String × Contract)
  | [] => []
  | (name, schema) :: rest => (name, atDepth space depth schema) :: ofProperties space depth rest

end

/-- The contract of a schema. -/
def ofSchema (space : List Char) (schema : Schema) : Contract :=
  atDepth space 1 schema

/-- The namespace in which the module of functions finds the types of schemas. -/
def schemasSpace : List Char := "Schemas.".toList

example : ofSchema [] (.array true (.boolean true)) =
    ⟨"z.array(z.boolean().nullable()).nullable()".toList, "(boolean | null)[] | null".toList⟩ := by
  decide +kernel
example : (ofSchema [] (.object false [("a", .unknown false)] [] none)).validator =
    "z.object(\x7b\n  a: z.any().optional(),\n\x7d)".toList := by decide +kernel
example : (ofSchema [] (.enumeration true [.text "a", .int 1])).validator =
    "z.union([z.literal(\"a\"), z.literal(1)]).nullable()".toList := by decide +kernel

end Contract

end ApiContract
