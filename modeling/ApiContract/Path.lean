import ApiContract.Identifier
import ApiContract.Text.Pieces

/-!
# Path templates

A path is a text with placeholders in braces. `parts` finds them; `template` rewrites them for a
template literal, `operationName` builds a function name from them. The segments of a path stand
between its slashes; `basePath` is what all paths of a description begin with, and `relativeTo`
takes it off.

A placeholder begins at a brace, holds at least one character and ends at the next closing brace.

Main facts: `commonStart_prefix_left` and `commonStart_prefix_right`, and an example for every rule.
-/

namespace ApiContract.Path

/-- A piece of a path: a character outside every placeholder, or a placeholder by its name. -/
inductive Part
  | char (c : Char)
  | slot (name : List Char)
  deriving DecidableEq, Repr

/-- The name of the placeholder that begins after an opening brace. -/
def slotName? (rest : List Char) : Option (List Char) :=
  let name := rest.takeWhile (· ≠ '\x7d')
  if name ≠ [] ∧ name.length < rest.length then some name else none

/-- The parts of a path of which the next `skip` characters belong to a placeholder that is
already found. -/
def partsFrom : Nat → List Char → List Part
  | _, [] => []
  | skip + 1, _ :: cs => partsFrom skip cs
  | 0, c :: cs =>
    if c = '\x7b' then
      match slotName? cs with
      | some name => .slot name :: partsFrom (name.length + 1) cs
      | none => .char c :: partsFrom 0 cs
    else .char c :: partsFrom 0 cs

/-- The parts of a path, from left to right. -/
def parts (path : List Char) : List Part :=
  partsFrom 0 path

/-- The placeholders of a path, in order. -/
def placeholders (path : List Char) : List (List Char) :=
  (parts path).filterMap fun
    | .slot name => some name
    | .char _ => none

/-- The path with every placeholder as a substitution of a template literal. -/
def template (path : List Char) : List Char :=
  (parts path).flatMap fun
    | .char c => [c]
    | .slot name => '$' :: '\x7b' :: Identifier.argument name ++ ['\x7d']

/-- The segments of a path: what stands between its slashes, without empty ones. -/
def segments (path : List Char) : List (List Char) :=
  (Text.piecesAt '/' path).filter (· ≠ [])

/-- A segment in braces. -/
def isSlot (segment : List Char) : Bool :=
  segment.head? == some '\x7b' && segment.getLast? == some '\x7d'

/-- A segment in the name of a function. -/
def segmentName (segment : List Char) : List Char :=
  if isSlot segment then 'B' :: 'y' :: Identifier.camelWords (segment.drop 1).dropLast
  else Identifier.camelWords segment

/-- A function name from a method and a path. -/
def operationName (method path : List Char) : List Char :=
  Text.lower method ++ (segments path).flatMap segmentName

/-- The longest list that two lists begin with. -/
def commonStart [DecidableEq α] : List α → List α → List α
  | a :: as, b :: bs => if a = b then a :: commonStart as bs else []
  | _, _ => []

/-- The segments that all paths begin with, up to the first one in braces, and leaving each path one
of its own. -/
def sharedSegments (paths : List (List (List Char))) : List (List Char) :=
  match paths with
  | [] => []
  | first :: others =>
    let shared := (others.foldl commonStart first).takeWhile fun s => !isSlot s
    let shortest := (others.map List.length).foldl min first.length
    shared.take (shortest - 1)

/-- What all paths begin with; nothing if there are fewer than two. -/
def basePath (paths : List (List Char)) : List Char :=
  if paths.length < 2 then []
  else (sharedSegments (paths.map segments)).flatMap ('/' :: ·)

/-- The path without the base path, if it begins with its segments. -/
def relativeTo (base path : List Char) : List Char :=
  let base := Text.dropEndWhile (· == '/') base
  if base ≠ [] ∧ base.isPrefixOf path then
    match path.drop base.length with
    | [] => ['/']
    | '/' :: rest => '/' :: rest
    | _ => path
  else path

theorem commonStart_prefix_left [DecidableEq α] (as bs : List α) : commonStart as bs <+: as := by
  fun_induction commonStart as bs with
  | case1 a as bs ih => exact List.cons_prefix_cons.2 ⟨rfl, ih⟩
  | case2 => exact List.nil_prefix
  | case3 => exact List.nil_prefix

theorem commonStart_prefix_right [DecidableEq α] (as bs : List α) : commonStart as bs <+: bs := by
  fun_induction commonStart as bs with
  | case1 a as bs ih => exact List.cons_prefix_cons.2 ⟨rfl, ih⟩
  | case2 => exact List.nil_prefix
  | case3 => exact List.nil_prefix

example : placeholders "/a/\x7b\x7bb\x7d/v\x7bc\x7d\x7b\x7d".toList = ["\x7bb".toList, ['c']] := by
  decide +kernel
example : template "/items/\x7bitem-id\x7d".toList = "/items/$\x7bitemId\x7d".toList := by
  decide +kernel
example : operationName "GET".toList "/user-profiles/\x7bid\x7d/".toList =
    "getUserProfilesById".toList := by decide +kernel
example : basePath ["/api/v1/users".toList, "/api/v1/pets/\x7bid\x7d".toList] =
    "/api/v1".toList := by decide +kernel
example : relativeTo "/api/v1".toList "/api/v10/users".toList = "/api/v10/users".toList := by
  decide +kernel

end ApiContract.Path
