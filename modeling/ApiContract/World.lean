import ApiContract.Console.Markup
import ApiContract.Environment
import ApiContract.Files.Draft
import ApiContract.Yaml.Reader

/-!
# What a run finds

A `World` is all that a run depends on besides its settings: the files, the variables, the text on
standard input, what comes of fetching a URL, the console and the reader of YAML. The last two can
be any; `Markup.render` and `Yaml.read` stand in for them where a world names no others.

Text files are UTF-8; every line break in them counts as a line feed.
-/

namespace ApiContract

/-- The answer to a request. -/
structure Answer where
  status : Int
  headers : List (String × String)
  text : String
  deriving Repr

namespace Answer

/-- Whether a request succeeded. -/
def isSuccess (a : Answer) : Bool := 200 ≤ a.status && a.status < 300

/-- The type of the content, empty if none is given. The case of the names of headers does not
count. -/
def contentType (a : Answer) : String :=
  Text.commaSeparated ((a.headers.filter fun h => h.1.map Char.toLower == "content-type").map (·.2))

end Answer

/-- What a run finds. -/
structure World where
  files : Files
  environment : Environment
  /-- The working directory, as messages name it. -/
  directory : String
  /-- The text on standard input, or why it cannot be read. -/
  input : Except String String
  /-- What comes of fetching a URL: an answer, or why there is none. -/
  answer : Except String Answer
  /-- What goes wrong with standard input or with a URL and is no such answer. -/
  mishap : Option String := none
  /-- Why it cannot be looked what is at a path, as in a directory that must not be searched. -/
  lookFault : FilePath → Option String := fun _ => none
  /-- Why a file that is there cannot be read. -/
  readFault : FilePath → Option String := fun _ => none
  /-- What befalls the drafts of the files that are written. -/
  drafting : FilePath → Drafting := fun _ => {}
  /-- What the console shows of markup, unless it refuses it. -/
  render : List Char → Option (List Char) := Markup.render
  /-- What the reader of YAML makes of a text. -/
  readYaml : List Char → Except Yaml.Fault Value := Yaml.read

namespace World

/-- Why a text file is not read. -/
inductive ReadFault
  | system (fault : Files.Fault)
  /-- The file is not UTF-8. -/
  | encoding
  deriving DecidableEq, Repr

/-- Whether there is a file at a path. -/
def isFile (world : World) (path : FilePath) : Except Files.Fault Bool :=
  match world.lookFault path with
  | some text => .error (.failed text)
  | none => world.files.isFile path

/-- The text with every line break as a line feed. -/
def withLineFeeds : List Char → List Char
  | '\r' :: '\n' :: rest => '\n' :: withLineFeeds rest
  | '\r' :: rest => '\n' :: withLineFeeds rest
  | c :: rest => c :: withLineFeeds rest
  | [] => []

/-- The text of a file. -/
def readText (world : World) (path : FilePath) : Except ReadFault (List Char) :=
  match world.readFault path with
  | some text => .error (.system (.failed text))
  | none =>
    match world.files.read path with
    | .error fault => .error (.system fault)
    | .ok bytes =>
      match String.fromUTF8? ⟨bytes.toArray⟩ with
      | some text => .ok (withLineFeeds text.toList)
      | none => .error .encoding

example : withLineFeeds "a\r\nb\rc\n".toList = "a\nb\nc\n".toList := by decide +kernel

end World

end ApiContract
