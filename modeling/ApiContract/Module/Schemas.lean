import ApiContract.Contract
import ApiContract.Module.Basic

/-!
# The module of schemas

The module declares every schema in a block of its own: the alias of its type and the constant that
holds its validator. A block may use the constants of the blocks before it.
-/

namespace ApiContract.Module

/-- The declarations of a schema. -/
structure Block where
  typeAlias : List Char
  validatorName : List Char
  contract : Contract
  deriving DecidableEq, Repr

namespace Block

/-- The declarations of a named schema. -/
def ofSchema (name : String) (schema : Schema) : Block where
  typeAlias := Identifier.typeAlias name.toList
  validatorName := Identifier.validatorName name.toList
  contract := Contract.ofSchema [] schema

/-- The text of a block. -/
def text (b : Block) : List Char :=
  "\nexport type ".toList ++ b.typeAlias ++ " = ".toList ++ b.contract.type ++
    ";\nexport const ".toList ++ b.validatorName ++ ": z.ZodType<".toList ++ b.typeAlias ++
    "> = ".toList ++ b.contract.validator ++ ";\n".toList

end Block

/-- The block of a name, if there is a schema of that name. -/
def block? (schemas : List (String × Schema)) (name : String) : Option Block :=
  (schemas.lookup name).map (Block.ofSchema name)

/-- The blocks of the names in order, if there is a schema for every name. -/
def blocks? (schemas : List (String × Schema)) (order : List String) : Option (List Block) :=
  order.mapM (block? schemas)

/-- The text of the schemas module. -/
def schemas (blocks : List Block) : List Char :=
  heading ++ "import \x7b z \x7d from \"zod\";\n".toList ++ blocks.flatMap Block.text

end ApiContract.Module
