import ApiContract.Console.Reporter
import ApiContract.Description.Reader
import ApiContract.Description.Version
import ApiContract.Output
import ApiContract.Settings
import ApiContract.Source

/-!
# A run

A run loads a description, generates the modules and, unless it is a dry one, writes them. Nothing
is written before everything is generated. A message that cannot be shown ends the run where it
stands.
-/

namespace ApiContract

namespace Run

/-- The description that a locator names. -/
def describe (world : World) (locator : String) : Trace Failure Description := do
  let fields ← Source.load world locator
  let version ← .ofExcept ((Description.standardVersion fields).mapError fun fault =>
    Failure.complaint (.description fault.message))
  (Description.ofFields version fields).mapError Failure.ofDescription

/-- A description in one line. -/
def summary (d : Description) : String :=
  d.title ++ " " ++ d.version ++ " (OpenAPI " ++ d.openapi ++ "): " ++
    toString d.schemas.length ++ " schemas, " ++ toString d.paths.length ++ " paths"

/-- Reports what a dry run would write. -/
def reportFiles (directory : FilePath) : List (String × List Char) → Trace Failure Unit
  | [] => pure ()
  | (name, _) :: rest => do
    .report .info ("Would write: " ++ (directory.child name).text)
    reportFiles directory rest

/-- The modules of a run, which are not written yet. -/
def prepare (world : World) (locator : String) (settings : Settings) (dry : Bool) :
    Trace Failure Sources := do
  .report .info ("Reading spec from: " ++ locator)
  let d ← describe world locator
  .report .debug (summary d)
  let sources ← (Generation.generate d settings.baseUrl settings.strictRefs).mapError
    Failure.ofGeneration
  if dry then reportFiles (.ofText settings.output) sources.files
  return sources

/-- What a run leaves: what it said, the modules or its failure, and the files. -/
structure Result (α : Type) where
  written : String
  outcome : Except Failure α
  files : Files

/-- What is left of a run whose messages were collected: if one cannot be shown, the run failed. -/
def shown (r : Reporter) (log : Bool) (trace : Trace Failure α) : String × Except Failure α :=
  let (text, complete) := r.write log trace.messages
  (text, if complete then trace.outcome else .error .markup)

/-- Writes the modules of a run and says so. -/
def publish (r : Reporter) (log : Bool) (world : World) (directory : FilePath)
    (sources : Sources) : Result Sources :=
  let (files, trace) := Output.write world.drafting directory sources world.files
  let (written, outcome) := shown r log (do
    trace
    .say (Output.doneReport directory)
    return sources)
  ⟨written, outcome, files⟩

/-- The end of a run that has said something: unless it is dry or has failed, it writes. -/
def finish (r : Reporter) (log : Bool) (world : World) (settings : Settings) (dry : Bool)
    (written : String) (outcome : Except Failure Sources) : Result Sources :=
  match outcome with
  | .error failure => ⟨written, .error failure, world.files⟩
  | .ok sources =>
    if dry then ⟨written, .ok sources, world.files⟩
    else
      let result := publish r log world (.ofText settings.output) sources
      { result with written := written ++ result.written }

/-- A run with its effects on the files. -/
def run (r : Reporter) (log : Bool) (world : World) (locator : String) (settings : Settings)
    (dry : Bool) : Result Sources :=
  let (written, outcome) := shown r log (prepare world locator settings dry)
  finish r log world settings dry written outcome

end Run

end ApiContract
