import ApiContract.Json.Reader
import ApiContract.Yaml.Cursor

/-!
# Decoding descriptions

A description is written in JSON or in YAML. What is known of its format decides what is tried: a
text known to be JSON is read as nothing else, one known to be YAML not as JSON, and any other as
JSON first. It has to hold an object. YAML is read by whatever reader there is.
-/

namespace ApiContract

/-- A format of descriptions. -/
inductive Format
  | json
  | yaml
  deriving DecidableEq, Repr

/-- The format that a word names. -/
def Format.ofName? (name : String) : Option Format :=
  if name = "json" then some .json else if name = "yaml" then some .yaml else none

namespace Decoding

/-- Why a text is not decoded. -/
inductive Fault
  /-- It has to be JSON and is not. -/
  | notJson (fault : Json.Fault)
  /-- It is neither JSON, where that was tried, nor YAML. -/
  | notYaml (json : Option Json.Fault)
  /-- The reader of YAML fails in another way than that it is none. -/
  | value (fault : Yaml.Fault)
  /-- It holds no object but something of another kind. -/
  | noObject (value : Value)
  deriving Repr

/-- What is wrong with a text that is not YAML. -/
def yamlText : String := "no document can be read"

/-- The name of a kind of value in messages. -/
def kindText : Value → String
  | .null => "empty document"
  | v => v.kindName

/-- The message for a fault in `text`; what else the reader of YAML fails with has none. -/
def Fault.message? (text : List Char) : Fault → Option String
  | notJson fault => some ("Invalid JSON: " ++ fault.message text)
  | notYaml json =>
    let tried := json.toList.map fun fault => "JSON error: " ++ fault.message text
    let lines := tried ++ ["YAML error: " ++ yamlText]
    some ("Failed to parse spec as JSON or YAML\n  " ++ "\n  ".intercalate lines)
  | value _ => none
  | noObject v => some ("Spec must be a JSON/YAML object (got " ++ kindText v ++ ")")

/-- The fields of an object. -/
def fieldsOf : Value → Except Fault Fields
  | .object fields => .ok fields
  | v => .error (.noObject v)

/-- The fields of a YAML text, after JSON was tried with this result. -/
def decodeYaml (readYaml : List Char → Except Yaml.Fault Value) (tried : Option Json.Fault)
    (text : List Char) : Except Fault Fields :=
  match readYaml text with
  | .ok v => fieldsOf v
  | .error .malformed => .error (.notYaml tried)
  | .error fault => .error (.value fault)

/-- The fields of a text of a known or unknown format. -/
def decode (readYaml : List Char → Except Yaml.Fault Value) (format : Option Format)
    (text : List Char) : Except Fault Fields :=
  if format = some .yaml then decodeYaml readYaml none text
  else
    match Json.read text with
    | .ok v => fieldsOf v
    | .error fault =>
      if format = some .json then .error (.notJson fault)
      else decodeYaml readYaml (some fault) text

end Decoding

end ApiContract
