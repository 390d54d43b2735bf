import ApiContract.Failure
import ApiContract.Trace
import ApiContract.World

/-!
# Where a description comes from

A locator names the source of a description: standard input, a URL, or a file. The source may tell
the format: a file by its suffix, an answer by the type of its content.
-/

namespace ApiContract

/-- Where a description comes from. -/
inductive Source
  | input
  | url (text : String)
  | file (text : String)
  deriving DecidableEq, Repr

namespace Source

/-- Whether a locator is fetched. -/
def isUrl (locator : String) : Bool :=
  "http://".toList.isPrefixOf locator.toList || "https://".toList.isPrefixOf locator.toList

/-- The source that a locator names. -/
def ofLocator (locator : String) : Source :=
  if locator = "-" then .input else if isUrl locator then .url locator else .file locator

/-- The complaint about a source. -/
def refuse (text : String) : Except Failure α :=
  .error (.complaint (.description text))

/-- The format that the type of content tells. -/
def contentFormat? (contentType : String) : Option Format :=
  let holds (word : String) : Bool := Text.occursIn word.toList contentType.toList
  if holds "json" then some .json
  else if holds "yaml" || holds "yml" then some .yaml
  else none

/-- The format that the suffix of a file tells. -/
def suffixFormat? (suffix : List Char) : Option Format :=
  let suffix := String.ofList (Text.lower suffix)
  if suffix = ".json" then some .json
  else if suffix = ".yaml" ∨ suffix = ".yml" then some .yaml
  else none

/-- The text of an answer. -/
def readAnswer (world : World) (url : String) : Except Failure (List Char × Option Format) :=
  match world.answer with
  | .error text => refuse ("Failed to fetch spec from " ++ url ++ ": " ++ text)
  | .ok a =>
    if a.isSuccess then .ok (a.text.toList, contentFormat? a.contentType)
    else refuse ("HTTP " ++ toString a.status ++ " fetching spec from " ++ url)

/-- The text on standard input, which must not be blank. -/
def readInput (world : World) : Except Failure (List Char × Option Format) :=
  match world.input with
  | .error text => refuse ("Failed to read from stdin: " ++ text)
  | .ok text =>
    if Text.allBlank text.toList then refuse "No input received from stdin"
    else .ok (text.toList, none)

/-- The text of a file, which must not be blank. -/
def readFile (world : World) (name : String) : Except Failure (List Char × Option Format) :=
  let path := FilePath.ofText name
  match world.isFile path with
  | .error fault => .error (.system fault)
  | .ok false => refuse ("Spec file not found: " ++ name)
  | .ok true =>
    match world.readText path with
    | .error (.system fault) =>
      refuse ("Failed to read spec file " ++ name ++ ": " ++ fault.text)
    | .error .encoding => .error .encoding
    | .ok text =>
      if Text.allBlank text then refuse ("Spec file is empty: " ++ name)
      else .ok (text, suffixFormat? path.suffix)

/-- The result of reading, unless something goes wrong that nobody foresaw. -/
def unlessMishap (world : World) (result : Except Failure α) : Except Failure α :=
  match world.mishap with
  | some text => .error (.system (.failed text))
  | none => result

/-- The text of a source and its format, if that is known. -/
def read (world : World) : Source → Except Failure (List Char × Option Format)
  | .input => unlessMishap world (readInput world)
  | .url text => unlessMishap world (readAnswer world text)
  | .file text => readFile world text

/-- The fields of the description that a locator names. -/
def load (world : World) (locator : String) : Trace Failure Fields := do
  let (text, format) ← .ofExcept ((ofLocator locator).read world)
  .note .loading
    ("Loaded " ++ toString text.length ++ " characters from " ++ locator)
  .ofExcept ((Decoding.decode world.readYaml format text).mapError (Failure.ofDecoding text))

end Source

end ApiContract
