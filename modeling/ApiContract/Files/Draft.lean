import ApiContract.Files

/-!
# Replacing files

A file is replaced at once: its bytes are written to a draft beside it, and the draft is then moved
over the file, so that nobody sees half of them. When anything fails, the draft is removed.

The name of a draft has a mark in it that the system draws; a name that is taken is passed over.
What is drawn is not up to the program, nor is whether the system does what it is asked for, so
`Drafting` holds both.
-/

namespace ApiContract

namespace Mark

/-- The characters of marks: small letters, digits and the underscore. -/
def isCharacter (c : Char) : Bool :=
  c.isLower || c.isDigit || c == '_'

end Mark

/-- What tells a draft from the others: eight characters. -/
structure Mark where
  text : String
  drawn : text.length = 8 ∧ text.toList.all Mark.isCharacter

/-- The mark that is drawn unless something else is said. -/
def Mark.zeros : Mark := ⟨"00000000", by decide⟩

/-- The stages in which a file is replaced. -/
inductive Stage
  | making
  | filling
  | moving
  deriving DecidableEq, Repr

/-- What befalls the draft of a file. -/
structure Drafting where
  /-- The marks in the order of drawing; after the last one no other is tried. -/
  marks : List Mark := [.zeros]
  /-- Why the system refuses a stage, whatever the files are. -/
  refusal : Stage → Option String := fun _ => none

/-- What comes of a stage. -/
def Drafting.attempt (drafting : Drafting) (stage : Stage) (result : Except Files.Fault α) :
    Except Files.Fault α :=
  match drafting.refusal stage with
  | some text => .error (.failed text)
  | none => result

/-- The draft of a file, beside it. -/
def FilePath.draft (path : FilePath) (mark : Mark) : FilePath :=
  path.parent.child ("." ++ path.name ++ "." ++ mark.text ++ ".tmp")

namespace Files

/-- Makes an empty file where nothing is. -/
def create (files : Files) (path : FilePath) : Except Fault Files := do
  let place ← files.locate path
  match files.get? place with
  | some _ => .error .alreadyThere
  | none => return files.set place (.file [])

/-- Makes an empty draft under the first name that is free. -/
def makeDraft (files : Files) (path : FilePath) : List Mark → Except Fault (FilePath × Files)
  | [] => .error .alreadyThere
  | mark :: marks =>
    match files.create (path.draft mark) with
    | .ok files => .ok (path.draft mark, files)
    | .error .alreadyThere => files.makeDraft path marks
    | .error fault => .error fault

/-- Moves a file, over another one if there is one. -/
def move (files : Files) (source target : FilePath) : Except Fault Files := do
  let origin ← files.locate source
  let bytes ← files.read source
  let place ← files.locate target
  if target.names = [] ∨ target.name = Location.above then .error .busy
  else
    match files.get? place with
    | some .directory => .error .isADirectory
    | _ => return (files.erase origin).set place (.file bytes)

/-- Removes a file, if that is possible. -/
def discard (files : Files) (path : FilePath) : Files :=
  match files.remove path with
  | .ok files => files
  | .error _ => files

/-- Puts bytes into a file by a draft that is there already. -/
def finishDraft (files : Files) (drafting : Drafting) (draft path : FilePath)
    (bytes : List UInt8) : Files × Except Fault Unit :=
  match drafting.attempt .filling (files.put draft bytes) with
  | .error fault => (files.discard draft, .error fault)
  | .ok files =>
    match drafting.attempt .moving (files.move draft path) with
    | .error fault => (files.discard draft, .error fault)
    | .ok files => (files, .ok ())

/-- Puts bytes into a file at once, and makes its directory. -/
def replace (files : Files) (path : FilePath) (bytes : List UInt8) (drafting : Drafting := {}) :
    Files × Except Fault Unit :=
  match files.makeDirectories path.parent with
  | (files, .ok ()) =>
    match drafting.attempt .making (files.makeDraft path drafting.marks) with
    | .error fault => (files, .error fault)
    | .ok (draft, files) => files.finishDraft drafting draft path bytes
  | failed => failed

end Files

end ApiContract
