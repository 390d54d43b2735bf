import ApiContract.Text.Pieces

/-!
# Paths of files

A path is a list of names, from the working directory or from the root on. Empty names and single
points do not count, so a slash at the end makes no difference; a name of two points leads back and
is kept, because what it leads back from has to exist. Of slashes at the start exactly two are kept,
any other number is one.

Main facts: `parent_child` and `name_child` (a child is inside its directory under its name).
-/

namespace ApiContract

/-- Where a path begins. -/
inductive Origin
  /-- In the working directory. -/
  | here
  | root
  /-- In the root, which is written with two slashes. -/
  | doubleRoot
  deriving DecidableEq, Repr

namespace Origin

/-- The slashes at the start of a path. -/
def text : Origin → String
  | here => ""
  | root => "/"
  | doubleRoot => "//"

/-- The origin of the path that a text spells. -/
def ofText (text : String) : Origin :=
  match (text.toList.takeWhile (· = '/')).length with
  | 0 => here
  | 2 => doubleRoot
  | _ => root

end Origin

/-- A path of a file or directory. -/
structure FilePath where
  origin : Origin
  names : List String
  deriving DecidableEq, Repr

namespace FilePath

/-- A part of a text that counts as a name. -/
def isName (part : List Char) : Bool :=
  part != [] && part != ['.']

/-- The path that a text spells. -/
def ofText (text : String) : FilePath where
  origin := .ofText text
  names := ((Text.piecesAt '/' text.toList).filter isName).map String.ofList

/-- The text of a path; the working directory itself is a point. -/
def text (path : FilePath) : String :=
  if path.origin = .here ∧ path.names = [] then "."
  else path.origin.text ++ "/".intercalate path.names

/-- The path of something inside a directory. -/
def child (path : FilePath) (name : String) : FilePath :=
  { path with names := path.names ++ [name] }

/-- The path of the directory that something is in. -/
def parent (path : FilePath) : FilePath :=
  { path with names := path.names.dropLast }

/-- The last name of a path. -/
def name (path : FilePath) : String :=
  path.names.getLast?.getD ""

/-- The suffix of a name with its point: a point begins one only between other characters. -/
def suffixOf (name : List Char) : List Char :=
  let tail := name.reverse.takeWhile (· ≠ '.')
  if tail ≠ [] ∧ tail.length + 1 < name.length then '.' :: tail.reverse else []

/-- The suffix of a path. -/
def suffix (path : FilePath) : List Char :=
  suffixOf path.name.toList

@[simp] theorem parent_child (path : FilePath) (name : String) :
    (path.child name).parent = path := by
  simp [child, parent]

@[simp] theorem name_child (path : FilePath) (name : String) : (path.child name).name = name := by
  simp [child, FilePath.name]

example : (ofText "./x/../y//z/").text = "x/../y/z" := by decide +kernel
example : (ofText "").text = "." ∧ (ofText "/").text = "/" := by decide +kernel
example : (ofText "//x").text = "//x" ∧ (ofText "///x").text = "/x" := by decide +kernel
example : (ofText "a/b.tar.gz").suffix = ".gz".toList := by decide +kernel
example : (ofText ".json").suffix = [] ∧ (ofText "x.").suffix = [] := by decide +kernel

end FilePath

end ApiContract
