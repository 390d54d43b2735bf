import ApiContract.Failure
import ApiContract.Field.Checked
import ApiContract.World

/-!
# Settings of a run

Where the modules go, what their client calls, and whether references have to lead somewhere. Each
setting comes from the first of these that gives it: the command line, the variables of the
surroundings, the file of the project, its default.

Main facts: `field?_applyTo_output`, `field?_applyTo_baseUrl` and `field?_applyTo_strictRefs` (a
given setting replaces the one below it, and nothing else does).
-/

namespace ApiContract

open ApiContract.Field

/-- The settings of a run. -/
structure Settings where
  output : String := "./__generated__"
  baseUrl : Option String := none
  strictRefs : Bool := false
  deriving DecidableEq, Repr

namespace Settings

/-- The settings of a record. -/
def ofRecord (fields : Fields) : Checked Settings :=
  Settings.mk <$> optional fields "output" "./__generated__" text
    <*> optional fields "base_url" none (orNull text)
    <*> optional fields "strict_refs" false truth

/-- Settings of which some are given. -/
structure Layer where
  output : Option String := none
  baseUrl : Option String := none
  strictRefs : Option Bool := none
  deriving DecidableEq, Repr

namespace Layer

/-- A field with a value, if one is given. -/
def putField (fields : Fields) (name : String) (value : Option Value) : Fields :=
  match value with
  | some v => fields.insert (.text name) v
  | none => fields

/-- A record with the given settings in place of its own. -/
def applyTo (layer : Layer) (fields : Fields) : Fields :=
  let fields := putField fields "output" (layer.output.map Value.text)
  let fields := putField fields "base_url" (layer.baseUrl.map Value.text)
  putField fields "strict_refs" (layer.strictRefs.map Value.bool)

theorem field?_putField_self (fields : Fields) (name : String) (value : Option Value) :
    (putField fields name value).field? name = value.or (fields.field? name) := by
  cases value <;> simp [putField, Fields.field?_insert_text]

theorem field?_putField_of_ne (fields : Fields) {name other : String} (h : other ≠ name)
    (value : Option Value) : (putField fields name value).field? other = fields.field? other := by
  cases value <;> simp [putField, Fields.field?_insert_of_ne _ h]

theorem field?_applyTo_output (layer : Layer) (fields : Fields) :
    (layer.applyTo fields).field? "output" =
      (layer.output.map Value.text).or (fields.field? "output") := by
  simp [applyTo, field?_putField_self, field?_putField_of_ne]

theorem field?_applyTo_baseUrl (layer : Layer) (fields : Fields) :
    (layer.applyTo fields).field? "base_url" =
      (layer.baseUrl.map Value.text).or (fields.field? "base_url") := by
  simp [applyTo, field?_putField_self, field?_putField_of_ne]

theorem field?_applyTo_strictRefs (layer : Layer) (fields : Fields) :
    (layer.applyTo fields).field? "strict_refs" =
      (layer.strictRefs.map Value.bool).or (fields.field? "strict_refs") := by
  simp [applyTo, field?_putField_self, field?_putField_of_ne]

end Layer

/-- The name of the file of a project. -/
def projectFile : String := "zodgen.json"

/-- The complaint about settings. -/
def complaint (text : String) : Complaint := { category := .configuration, text }

/-- The record in the file of a project, which is in a directory or the working directory. Without
a file the record is empty. -/
def project (world : World) (directory : Option FilePath) : Except Failure Fields :=
  let path := (directory.getD ⟨.here, []⟩).child projectFile
  let shown := match directory with
    | some _ => path.text
    | none => world.directory ++ "/" ++ projectFile
  let refuse (reason : String) : Complaint :=
    complaint ("Invalid project config at " ++ shown ++ ": " ++ reason)
  match world.isFile path with
  | .error fault => .error (.system fault)
  | .ok false => .ok []
  | .ok true =>
    match world.readText path with
    | .error .encoding => .error .encoding
    | .error (.system fault) =>
      .error (.complaint { refuse fault.text with cause := some fault })
    | .ok text =>
      match Json.read text with
      | .error fault => .error (.complaint (refuse (fault.message text)))
      | .ok (.object fields) => .ok fields
      | .ok _ => .error (.complaint (refuse "expected a JSON object"))

/-- The variable for strict references. -/
def strictVariable : String := "ZODGEN_STRICT_REFS"

/-- The words of a variable for a truth value. -/
def variableWords : List (String × Bool) := [
  ("1", true), ("true", true), ("yes", true), ("on", true),
  ("0", false), ("false", false), ("no", false), ("off", false)]

/-- The truth value of a variable, if it is set and not blank. -/
def readVariable (name : String) (value : Option String) : Except Failure (Option Bool) :=
  match value with
  | none => .ok none
  | some raw =>
    let word := Text.trim raw.toList
    if word = [] then .ok none
    else
      match variableWords.lookup (String.ofList (Text.lower word)) with
      | some b => .ok (some b)
      | none =>
        .error (.complaint (complaint
          (name ++ " must be a boolean (got " ++ (Value.text raw).quoted ++ ")")))

/-- The settings that the variables give. -/
def ofEnvironment (env : Environment) : Except Failure Layer := do
  let strictRefs ← readVariable strictVariable (env.get? strictVariable)
  return ⟨env.filled? "ZODGEN_OUTPUT", env.filled? "ZODGEN_BASE_URL", strictRefs⟩

/-- The settings of a record, or a complaint about its fields. -/
def check (fields : Fields) : Except Failure Settings :=
  match ofRecord fields with
  | .ok settings => .ok settings
  | .error faults =>
    .error (.complaint { complaint "Invalid configuration: fields do not fit" with faults })

/-- The settings of a run: those given on the command line, then those of the variables, then those
of the project. -/
def resolve (world : World) (given : Layer) (directory : Option FilePath) :
    Except Failure Settings := do
  let fields ← project world directory
  let surrounding ← ofEnvironment world.environment
  check (given.applyTo (surrounding.applyTo fields))

end Settings

end ApiContract
