import ApiContract.Files
import ApiContract.Generation

/-!
# Complaints to the user

A `Complaint` is a failure that the user can do something about: its category, its text and the exit
code that goes with it. A category has an exit code of its own, which a complaint may replace.
-/

namespace ApiContract

/-- The categories of complaints. -/
inductive Category
  | general
  | usage
  | description
  | circular
  | unresolved
  | output
  | configuration
  deriving DecidableEq, Repr

/-- The exit code of a category. -/
def Category.exitCode : Category → Int
  | general => 1
  | usage => 2
  | description => 7
  | circular => 8
  | unresolved => 9
  | output => 11
  | configuration => 1

/-- A failure that the user is told about. -/
structure Complaint where
  category : Category
  text : String
  exitCode : Int := category.exitCode
  /-- The schemas that it is about. -/
  names : List String := []
  /-- The fields that it is about. -/
  faults : List Field.Fault := []
  /-- The refusal of the system behind it. -/
  cause : Option Files.Fault := none
  deriving DecidableEq, Repr

namespace Complaint

/-- The complaint about schemas in a cycle. -/
def circular (names : List String) : Complaint :=
  let names := Text.sorted names
  { category := .circular, text := Generation.circularText names, names }

/-- The complaint about schemas that are not declared. -/
def unresolved (names : List String) : Complaint :=
  let names := Text.sorted names
  { category := .unresolved, text := Generation.unresolvedText names, names }

/-- The complaint about a description. -/
def description (text : String) : Complaint :=
  { category := .description, text }

end Complaint

end ApiContract
