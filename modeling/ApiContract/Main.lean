import ApiContract.Command

/-!
# The program

Finds what a command line needs to know of the system, lets `Command` decide, and writes the files.
There is no network here, so a URL cannot be fetched.
-/

namespace ApiContract.Program

/-- The variables that a run looks at. -/
def variableNames : List String :=
  ["NO_COLOR", "TERM", "ZODGEN_OUTPUT", "ZODGEN_BASE_URL", Settings.strictVariable]

/-- The surroundings. -/
def environment : IO Environment :=
  variableNames.filterMapM fun name => do
    return (← IO.getEnv name).map (name, ·)

/-- The rest of a stream. -/
partial def readAll (stream : IO.FS.Stream) (before : String) : IO String := do
  let line ← stream.getLine
  if line.isEmpty then return before else readAll stream (before ++ line)

/-- The text on standard input, or why it cannot be read. -/
def input : IO (Except String String) := do
  try return .ok (← readAll (← IO.getStdin) "")
  catch e => return .error (toString e)

/-- The directories that a path leads through, and the file at its end. -/
def placed (path : FilePath) (bytes : List UInt8) : List (Location × Entry) :=
  let places := path.names.foldl (fun (places : List Location) name =>
    ((places.headD []).step name) :: places) [Location.start path]
  match places with
  | [] => []
  | last :: above => (last, .file bytes) :: above.map (·, .directory)

/-- What is known of a file before the run: its bytes, or why they cannot be read. -/
def look (path : FilePath) : IO (List (Location × Entry) × Option String) := do
  try
    let bytes ← IO.FS.readBinFile path.text
    return (placed path bytes.toList, none)
  catch e =>
    match e with
    | .noFileOrDirectory .. | .inappropriateType .. => return ([], none)
    | e => return (placed path [], some (toString e))

/-- The file that a locator names, if it names one. -/
def fileOf (locator : String) : Option FilePath :=
  match Source.ofLocator locator with
  | .file text => some (.ofText text)
  | _ => none

/-- The world that a request finds. -/
def world (request : Command.Request) : IO World := do
  let project : FilePath := ⟨.here, [Settings.projectFile]⟩
  let (settings, settingsFault) ← look project
  let (description, descriptionFault) ← match fileOf request.input with
    | some path => look path
    | none => pure ([], none)
  return {
    files := ⟨description ++ settings⟩
    environment := ← environment
    directory := toString (← IO.currentDir)
    input := ← if Source.ofLocator request.input = .input then input else pure (.ok "")
    answer := .error "no network"
    readFault := fun path => if path = project then settingsFault else descriptionFault }

/-- A part of a run that can fail. -/
abbrev Step := ExceptT Failure IO

/-- Shows a message. -/
def say (r : Reporter) (log : Bool) (m : Message) : Step Unit :=
  match r.written? log m with
  | some line => IO.eprint line
  | none => throw .markup

/-- Removes a file, if that is possible. -/
def discard (path : FilePath) : IO Unit := do
  try IO.FS.removeFile path.text
  catch _ => return

/-- Puts a text into a file at once. When that fails, nothing is left of it. -/
def replace (path : FilePath) (text : List Char) : IO Unit := do
  let draft := path.parent.child ("." ++ path.name ++ ".draft.tmp")
  try
    IO.FS.writeFile draft.text (String.ofList text)
    IO.FS.rename draft.text path.text
  catch e =>
    discard draft
    throw e

/-- Writes the modules and says so. -/
def publish (r : Reporter) (log : Bool) (directory : FilePath) (sources : Sources) : Step Unit := do
  let guarded (act : IO Unit) : Step Unit := do
    match ← act.toBaseIO with
    | .ok () => return
    | .error e => throw (Output.refuse directory (.failed (toString e)))
  guarded (IO.FS.createDirAll directory.text)
  for (name, text) in sources.files do
    guarded (replace (directory.child name) text)
    say r log (Output.writtenNote (directory.child name) text)
  say r log (Output.doneReport directory)

/-- Carries out a request. -/
def generate (request : Command.Request) : IO Int := do
  let world ← world request
  let r := Command.reporter world request
  let (written, prepared) := Command.prepare world request
  IO.eprint written
  let outcome ← match prepared with
    | .error failure => pure (.error failure)
    | .ok (settings, sources) =>
      if request.dryRun then pure (.ok ())
      else (publish r request.verbose (.ofText settings.output) sources).run
  let (last, exitCode) := Command.ending world request outcome
  IO.eprint last
  return exitCode

end ApiContract.Program

/-- Carries out a command line. -/
def main (args : List String) : IO UInt32 := do
  match ApiContract.Command.parse args with
  | .version =>
    IO.print ApiContract.Command.versionText
    return 0
  | .help exitCode =>
    IO.print ApiContract.Command.helpText
    return exitCode.toNat.toUInt32
  | .misuse text =>
    IO.eprint text
    return ApiContract.Category.usage.exitCode.toNat.toUInt32
  | .generate request =>
    return (← ApiContract.Program.generate request).toNat.toUInt32
