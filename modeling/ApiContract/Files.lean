import ApiContract.FilePath

/-!
# Files

The files and directories that a run finds and leaves behind. A `Location` is where a path leads
from the working directory on; what lies outside of the working directory is kept apart by its
first name, which is that of the directory above or of the root.

Making a directory with `makeDirectories` makes those above it too.

Main facts: `get?_set_self`, `get?_set_of_ne`, `get?_erase_self` and `get?_erase_of_ne` (what is
where after a change).
-/

namespace ApiContract

/-- Where something is. -/
abbrev Location := List String

namespace Location

/-- The name of the directory above. -/
def above : String := ".."

/-- The root of all directories. -/
def root : Location := ["/"]

/-- Directories that are always there: the working directory, those above it, and the root. -/
def isFixed (place : Location) : Bool :=
  place == root || place.all (· == above)

/-- The place that a name leads to. -/
def step (place : Location) (name : String) : Location :=
  if name = above then
    if place = root then place
    else if place.isFixed then place ++ [above]
    else place.dropLast
  else place ++ [name]

/-- Whether a place is inside the working directory. -/
def isInside (place : Location) : Bool :=
  place.head?.any fun name => name != above && name != "/"

/-- Where a path begins. -/
def start (path : FilePath) : Location :=
  if path.origin = .here then [] else root

end Location

/-- What can be at a place. -/
inductive Entry
  | directory
  | file (bytes : List UInt8)
  deriving DecidableEq, Repr

/-- Files and directories by their places. -/
structure Files where
  entries : List (Location × Entry) := []
  deriving Repr

namespace Files

/-- Why the system refuses an access. -/
inductive Fault
  | notFound
  | notADirectory
  | isADirectory
  | alreadyThere
  | nameTooLong
  | busy
  /-- A name with a zero character. -/
  | zeroCharacter
  /-- Anything else, in the words of the system. -/
  | failed (text : String)
  deriving DecidableEq, Repr

/-- A refusal in words. -/
def Fault.text : Fault → String
  | notFound => "[Errno 2] No such file or directory"
  | notADirectory => "[Errno 20] Not a directory"
  | isADirectory => "[Errno 21] Is a directory"
  | alreadyThere => "[Errno 17] File exists"
  | nameTooLong => "[Errno 36] File name too long"
  | busy => "[Errno 16] Device or resource busy"
  | zeroCharacter => "embedded null byte"
  | failed text => text

/-- What is at a place. -/
def get? (files : Files) (place : Location) : Option Entry :=
  if place.isFixed then some .directory else files.entries.lookup place

/-- Puts something at a place. -/
def set (files : Files) (place : Location) (entry : Entry) : Files :=
  ⟨(place, entry) :: files.entries.filter (·.1 ≠ place)⟩

/-- Leaves nothing at a place. -/
def erase (files : Files) (place : Location) : Files :=
  ⟨files.entries.filter (·.1 ≠ place)⟩

theorem get?_set_self (files : Files) {place : Location} (h : place.isFixed = false)
    (entry : Entry) : (files.set place entry).get? place = some entry := by
  simp [get?, set, h]

theorem lookup_filter_ne {entries : List (Location × Entry)} {place other : Location}
    (h : other ≠ place) : (entries.filter (·.1 ≠ place)).lookup other = entries.lookup other := by
  induction entries with
  | nil => rfl
  | cons entry rest ih =>
    obtain ⟨at_, e⟩ := entry
    by_cases hp : at_ = place
    · subst hp
      have : (other == at_) = false := by simpa using h
      simp [List.lookup_cons, this, ← ih]
    · simp only [List.filter_cons, hp, ne_eq, not_false_eq_true, decide_true, if_true,
        List.lookup_cons]
      split
      · rfl
      · exact ih

theorem get?_set_of_ne (files : Files) {place other : Location} (h : other ≠ place)
    (entry : Entry) : (files.set place entry).get? other = files.get? other := by
  have hb : (other == place) = false := by simpa using h
  unfold get? set
  split
  · rfl
  · rw [List.lookup_cons, hb]
    exact lookup_filter_ne h

theorem get?_erase_self (files : Files) {place : Location} (h : place.isFixed = false) :
    (files.erase place).get? place = none := by
  simp only [get?, erase, h, Bool.false_eq_true, if_false, List.lookup_eq_none_iff, List.mem_filter]
  rintro ⟨other, entry⟩ ⟨-, hother⟩
  simpa using Ne.symm (of_decide_eq_true hother)

theorem get?_erase_of_ne (files : Files) {place other : Location} (h : other ≠ place) :
    (files.erase place).get? other = files.get? other := by
  unfold get? erase
  rw [lookup_filter_ne h]

/-- What is no directory is at no place that is always one. -/
theorem isFixed_of_get? {files : Files} {place : Location}
    (h : files.get? place ≠ some .directory) : place.isFixed = false := by
  cases hfixed : place.isFixed with
  | false => rfl
  | true => exact absurd (by simp [get?, hfixed]) h

/-! ## Finding -/

/-- The longest name, in bytes. -/
def longestName : Nat := 255

/-- The longest path, in bytes. -/
def longestPath : Nat := 4095

/-- Follows names from a place on; all but the last one have to lead to directories. -/
def follow (files : Files) (place : Location) : List String → Except Fault Location
  | [] => .ok place
  | name :: rest =>
    match files.get? place with
    | none => .error .notFound
    | some (.file _) => .error .notADirectory
    | some .directory =>
      if longestName < name.utf8ByteSize then .error .nameTooLong
      else files.follow (place.step name) rest

/-- Where a path leads. -/
def locate (files : Files) (path : FilePath) : Except Fault Location :=
  if path.names.any fun name => '\x00' ∈ name.toList then .error .zeroCharacter
  else if longestPath < path.text.utf8ByteSize then .error .nameTooLong
  else files.follow (Location.start path) path.names

/-- What is at a path. -/
def find (files : Files) (path : FilePath) : Except Fault Entry := do
  match files.get? (← files.locate path) with
  | some entry => return entry
  | none => .error .notFound

/-- The bytes of the file at a path. -/
def read (files : Files) (path : FilePath) : Except Fault (List UInt8) := do
  match ← files.find path with
  | .file bytes => return bytes
  | .directory => .error .isADirectory

/-- Looks whether something of a kind is at a path. A path that leads nowhere is no fault. -/
def check (files : Files) (path : FilePath) (p : Entry → Bool) : Except Fault Bool :=
  match files.find path with
  | .ok entry => .ok (p entry)
  | .error .notFound | .error .notADirectory | .error .zeroCharacter => .ok false
  | .error fault => .error fault

/-- Whether there is a file at a path. -/
def isFile (files : Files) (path : FilePath) : Except Fault Bool :=
  files.check path fun entry => entry != .directory

/-- Whether there is a directory at a path. -/
def isDirectory (files : Files) (path : FilePath) : Except Fault Bool :=
  files.check path (· == .directory)

/-! ## Changing -/

/-- The place for something new at a path, which must not lead back. -/
def newPlace (files : Files) (path : FilePath) : Except Fault Location := do
  let place ← files.locate path
  if path.names = [] ∨ path.name = Location.above then .error .alreadyThere
  else return place

/-- Makes a directory in one that is there. -/
def makeDirectory (files : Files) (path : FilePath) : Except Fault Files := do
  let place ← files.newPlace path
  match files.get? place with
  | some _ => .error .alreadyThere
  | none => return files.set place .directory

/-- Makes a directory unless it is there. -/
def ensureDirectory (files : Files) (path : FilePath) : Files × Except Fault Unit :=
  match files.makeDirectory path with
  | .ok files => (files, .ok ())
  | .error fault =>
    match files.isDirectory path with
    | .ok true => (files, .ok ())
    | .ok false => (files, .error fault)
    | .error fault => (files, .error fault)

/-- Makes the directory that names lead to, the last name first, and those above it. -/
def makeAll (files : Files) (origin : Origin) : List String → Files × Except Fault Unit
  | [] => files.ensureDirectory ⟨origin, []⟩
  | name :: above =>
    let path : FilePath := ⟨origin, (name :: above).reverse⟩
    match files.makeDirectory path with
    | .error .notFound =>
      match files.makeAll origin above with
      | (files, .ok ()) => files.ensureDirectory path
      | failed => failed
    | _ => files.ensureDirectory path

/-- Makes the directory at a path and those above it, unless they are there. A failure may leave
some of them behind. -/
def makeDirectories (files : Files) (path : FilePath) : Files × Except Fault Unit :=
  files.makeAll path.origin path.names.reverse

/-- Puts bytes into a file of a directory that is there, in place of the old file. -/
def put (files : Files) (path : FilePath) (bytes : List UInt8) : Except Fault Files := do
  let place ← files.locate path
  match files.get? place with
  | some .directory => .error .isADirectory
  | _ => return files.set place (.file bytes)

/-- Removes a file. -/
def remove (files : Files) (path : FilePath) : Except Fault Files := do
  let place ← files.locate path
  match files.get? place with
  | some (.file _) => return files.erase place
  | some .directory => .error .isADirectory
  | none => .error .notFound

/-- How an entry is listed. -/
def listed (place : Location) (entry : Entry) : String :=
  "/".intercalate place ++ if entry = .directory then "/" else ""

/-- All files and directories inside the working directory, in order. -/
def listing (files : Files) : List String :=
  let inside := files.entries.filter fun e => Location.isInside e.1
  (inside.map fun (place, entry) => listed place entry).mergeSort fun a b => decide (a ≤ b)

example : ((Files.mk []).makeDirectories (.ofText "x/../y/z")).1.listing =
    ["x/", "y/", "y/z/"] := by
  cbv
example : ((Files.mk [(["f"], .file [])]).makeDirectories (.ofText "f/x")).2 matches
    .error .notADirectory := by decide +kernel

end Files

end ApiContract
