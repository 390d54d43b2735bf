import ApiContract.Failure
import ApiContract.Files.Draft
import ApiContract.Trace

/-!
# Writing the modules

The modules go into a directory, which is made if it is not there. Each file is replaced at once;
the first one that cannot be written ends the writing, and those before it stay.
-/

namespace ApiContract.Output

/-- The text of a file in bytes. -/
def bytesOf (text : List Char) : List UInt8 :=
  (String.ofList text).toUTF8.toList

/-- The complaint about a directory that cannot be written to. A name that no file can have is no
refusal of the system. -/
def refuse (directory : FilePath) (fault : Files.Fault) : Failure :=
  if fault = .zeroCharacter then .system fault
  else .complaint {
    category := .output
    text := "Cannot write generated files to " ++ directory.text ++ ": " ++ fault.text
    cause := some fault }

/-- The line of the log about a written file. -/
def writtenNote (path : FilePath) (text : List Char) : Message :=
  .note .generation ("Wrote " ++ path.text ++ " (" ++ toString text.length ++ " bytes)")

/-- The report about a directory with all its files. -/
def doneReport (directory : FilePath) : Message :=
  .report .success ("Files written to " ++ directory.text)

/-- Writes files one after another into a directory that is there. -/
def writeFiles (drafting : FilePath → Drafting) (directory : FilePath) :
    List (String × List Char) → Files → Files × Trace Files.Fault Unit
  | [], files => (files, pure ())
  | (name, text) :: rest, files =>
    let path := directory.child name
    match files.replace path (bytesOf text) (drafting path) with
    | (files, .error fault) => (files, .fail fault)
    | (files, .ok ()) =>
      let (files, more) := writeFiles drafting directory rest files
      (files, do
        .say (writtenNote path text)
        more)

/-- Writes the modules into a directory. -/
def write (drafting : FilePath → Drafting) (directory : FilePath) (sources : Sources)
    (files : Files) : Files × Trace Failure Unit :=
  match files.makeDirectories directory with
  | (files, .error fault) => (files, .fail (refuse directory fault))
  | (files, .ok ()) =>
    let (files, trace) := writeFiles drafting directory sources.files files
    (files, trace.mapError (refuse directory))

end ApiContract.Output
