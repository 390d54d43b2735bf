import ApiContract.Command.Arguments
import ApiContract.Run

/-!
# The command line

The command `generate` makes a run; options before it say how its messages are shown. A run that
fails has the exit code of its failure.

A command line that is not understood ends with code 2, as does an empty one.
-/

namespace ApiContract

namespace Command

/-- The options before a command. -/
inductive GeneralOption
  | version
  | noColour
  | quiet
  | verbose
  | help
  deriving DecidableEq, Repr

/-- How the options before a command are written. -/
def generalOptions : List (Arguments.Spelling GeneralOption) := [
  ⟨"--version", .version, false⟩, ⟨"--no-color", .noColour, false⟩, ⟨"--quiet", .quiet, false⟩,
  ⟨"-q", .quiet, false⟩, ⟨"--verbose", .verbose, false⟩, ⟨"-v", .verbose, false⟩,
  ⟨"--help", .help, false⟩]

/-- The options of the command. -/
inductive GenerateOption
  | input
  | output
  | baseUrl
  /-- Whether references have to lead somewhere. -/
  | strictRefs (strict : Bool)
  | dryRun
  | help
  deriving DecidableEq, Repr

/-- How the options of the command are written. -/
def generateOptions : List (Arguments.Spelling GenerateOption) := [
  ⟨"--input", .input, true⟩, ⟨"-i", .input, true⟩, ⟨"--output", .output, true⟩,
  ⟨"-o", .output, true⟩, ⟨"--base-url", .baseUrl, true⟩, ⟨"--strict-refs", .strictRefs true, false⟩,
  ⟨"--no-strict-refs", .strictRefs false, false⟩, ⟨"--dry-run", .dryRun, false⟩,
  ⟨"-n", .dryRun, false⟩, ⟨"--help", .help, false⟩]

/-- What a command line asks to generate, and how. -/
structure Request where
  noColour : Bool
  quiet : Bool
  verbose : Bool
  input : String
  given : Settings.Layer
  dryRun : Bool
  deriving DecidableEq, Repr

/-- What a command line asks for. -/
inductive Invocation
  | generate (request : Request)
  | version
  | help (exitCode : Int)
  /-- The command line is not understood. -/
  | misuse (text : String)
  deriving DecidableEq, Repr

/-- How the command is used. -/
def usage : String := "Usage: zodgen [OPTIONS] generate --input TEXT [OPTIONS]\n"

/-- The help. -/
def helpText : String :=
  usage ++ "\n" ++
  "Generate zod schemas and a typed fetch client from OpenAPI 3.0/3.1 specs.\n\n" ++
  "  --version                         Show version and exit.\n" ++
  "  --no-color                        Disable color output.\n" ++
  "  -q, --quiet                       Suppress non-essential output.\n" ++
  "  -v, --verbose                     Enable debug output.\n\n" ++
  "  -i, --input TEXT                  OpenAPI spec URL or file path ('-' for stdin).\n" ++
  "  -o, --output TEXT                 Output directory for generated files.\n" ++
  "  --base-url TEXT                   Origin placed before the common path prefix.\n" ++
  "  --strict-refs / --no-strict-refs  Fail when a $ref targets an undefined schema.\n" ++
  "  -n, --dry-run                     Show what would be written without writing.\n"

/-- The version. -/
def versionText : String := "zodgen 0.1.0\n"

/-- A text in a frame of 80 columns. -/
def framed (text : String) : String :=
  let line (n : Nat) : String := String.ofList (List.replicate n '─')
  let filling := String.ofList (List.replicate (76 - text.length) ' ')
  "╭─ Error " ++ line 70 ++ "╮\n│ " ++ text ++ filling ++ " │\n╰" ++ line 78 ++ "╯\n"

/-- The misuse with a reminder of how the command is used. -/
def misuse (text : String) : Invocation := .misuse (usage ++ framed text)

/-- The misuse for arguments that are not understood. -/
def ofFault : Arguments.Fault → Invocation
  | .unknown option => misuse ("No such option: " ++ option)
  | .needsValue option => .misuse (framed ("Option '" ++ option ++ "' requires an argument."))
  | .takesNoValue option => .misuse (framed ("Option '" ++ option ++ "' does not take a value."))

/-- Whether references have to lead somewhere; the last option about it counts. -/
def strictRefs? (p : Arguments.Parsed GenerateOption) : Option Bool :=
  p.options.foldl (fun found option =>
    match option.1 with
    | .strictRefs strict => some strict
    | _ => found) none

/-- The request of the command, with the options before it. -/
def readGenerate (general : Arguments.Parsed GeneralOption) (args : List String) : Invocation :=
  match Arguments.read generateOptions true args with
  | .error fault => ofFault fault
  | .ok p =>
    if p.has .help then .help 0
    else
      match p.value? .input, p.others with
      | none, _ => misuse "Missing option '--input' / '-i'."
      | _, extra :: _ => misuse ("Got unexpected extra argument (" ++ extra ++ ")")
      | some input, [] =>
        .generate {
          noColour := general.has .noColour
          quiet := general.has .quiet
          verbose := general.has .verbose
          input
          given := ⟨p.value? .output, p.value? .baseUrl, strictRefs? p⟩
          dryRun := p.has .dryRun }

/-- Whether a word that is no command looks like an option. -/
def looksLikeOption (word : String) : Bool :=
  match word.toList with
  | c :: _ => !(c.isAlphanum || 128 ≤ c.toNat)
  | [] => false

/-- What a command line asks for. Of the options for help and for the version the first counts. -/
def parse (args : List String) : Invocation :=
  if args = [] then .help 2
  else
    match Arguments.read generalOptions false args with
    | .error fault => ofFault fault
    | .ok p =>
      match (p.options.map Prod.fst).find? fun o => o = .version ∨ o = .help, p.others with
      | some .version, _ => .version
      | some _, _ => .help 0
      | none, [] => misuse "Missing command."
      | none, "generate" :: rest => readGenerate p rest
      | none, word :: _ =>
        if looksLikeOption word then .help 2 else misuse ("No such command '" ++ word ++ "'.")

/-! ## Carrying out -/

/-- What a command leaves. -/
structure Result where
  exitCode : Int
  output : String := ""
  errors : String := ""
  files : Files

/-- The reporter of a request. -/
def reporter (world : World) (request : Request) : Reporter :=
  .ofEnvironment world.environment request.noColour request.quiet request.verbose world.render

/-- The complaint about a blank input. -/
def blankInput : Complaint :=
  { category := .usage, text := "--input must be a URL, a file path or '-'" }

/-- The settings of a request. -/
def settings (world : World) (request : Request) : Except Failure Settings :=
  if Text.allBlank request.input.toList then .error (.complaint blankInput)
  else Settings.resolve world request.given none

/-- What the run of a request says before it writes, and what it will write and where. -/
def prepare (world : World) (request : Request) : String × Except Failure (Settings × Sources) :=
  match settings world request with
  | .error failure => ("", .error failure)
  | .ok s =>
    let (written, outcome) := Run.shown (reporter world request) request.verbose
      (Run.prepare world request.input s request.dryRun)
    (written, outcome.map (s, ·))

/-- The run of a request. -/
def carryOut (world : World) (request : Request) : Run.Result Sources :=
  match settings world request with
  | .error failure => ⟨"", .error failure, world.files⟩
  | .ok s =>
    Run.run (reporter world request) request.verbose world request.input s request.dryRun

/-- What is said about a failure that nobody foresaw: always shown, whatever the request asks. -/
def unforeseen (world : World) (request : Request) (failure : Failure) : String :=
  let r := Reporter.ofEnvironment world.environment false false false world.render
  (r.write request.verbose [.note .command "Unexpected error",
    .report .error ("Unexpected error: " ++ failure.unforeseenText)]).1

/-- The hint after a run that wrote files. -/
def hint : Message :=
  .report .suggestion "Import the endpoints module: import * as api from \"./endpoints.api\""

/-- The last words of a run with its exit code, unless they cannot be shown. -/
def lastWords (world : World) (request : Request) (words : Message) (exitCode : Int) :
    String × Int :=
  match (reporter world request).written? request.verbose words with
  | some text => (text, exitCode)
  | none => (unforeseen world request .markup, Failure.markup.exitCode)

/-- What is said at the end of a run, and its exit code. -/
def ending (world : World) (request : Request) : Except Failure α → String × Int
  | .ok _ => if request.dryRun then ("", 0) else lastWords world request hint 0
  | .error (.complaint c) => lastWords world request (.report .error c.text) c.exitCode
  | .error failure => (unforeseen world request failure, failure.exitCode)

/-- Carries out what a command line asks for. -/
def run (world : World) (args : List String) : Result :=
  match parse args with
  | .version => { exitCode := 0, output := versionText, files := world.files }
  | .help exitCode => { exitCode, output := helpText, files := world.files }
  | .misuse text => { exitCode := Category.usage.exitCode, errors := text, files := world.files }
  | .generate request =>
    let result := carryOut world request
    let (last, exitCode) := ending world request result.outcome
    { exitCode, errors := result.written ++ last, files := result.files }

end Command

end ApiContract
