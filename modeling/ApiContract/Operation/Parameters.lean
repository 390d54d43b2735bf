import ApiContract.Description.Fault
import ApiContract.Value.Text

/-!
# Parameters of an operation

Parameters are declared for a path and for an operation. Those of the operation come last and take
the place of those of the path with the same name and location.

Main facts: `mem_foldl_addNew` (which names are listed) and `nodup_namesIn` (each is listed once).
-/

namespace ApiContract

/-- The name of a parameter and where it is sent. -/
structure Parameter where
  name : Scalar
  location : Scalar
  deriving DecidableEq, Repr

namespace Parameter

open Description

/-- A field that is compared with others; one that is missing counts as null. -/
def plain (value : Option Value) : Except Fault Scalar :=
  match value with
  | none => .ok .null
  | some (.scalar s) => .ok s
  | some _ => .error .noKey

/-- The parameter that an object declares. -/
def ofFields (fields : Fields) : Except Fault Parameter := do
  return ⟨← plain (fields.field? "name"), ← plain (fields.field? "in")⟩

/-- What the items of a list of parameters stand for. -/
def resolve (components : Value) (items : List Value) : Except Fault (List Value) :=
  items.mapM fun item => (Pointer.deref item components).mapError .pointer

/-- Whether two parameters are the same one. -/
def same (p q : Parameter) : Bool :=
  p.name.same q.name && p.location.same q.location

/-- The parameters of a path that no parameter of the operation replaces, and those of the
operation. -/
def merge (ofPath ofOperation : List Parameter) : List Parameter :=
  ofPath.filter (fun p => !ofOperation.any p.same) ++ ofOperation

/-- Reads and merges two lists of parameters. Items that are no objects are left out. -/
def read (components : Value) (ofPath ofOperation : Option Value) :
    Except Fault (List Parameter) := do
  let ofPath ← resolve components (← Value.itemsOrNone ofPath)
  let ofOperation ← resolve components (← Value.itemsOrNone ofOperation)
  let ofOperation ← (Value.objectsAmong ofOperation).mapM ofFields
  let ofPath ← (Value.objectsAmong ofPath).mapM ofFields
  return merge ofPath ofOperation

/-- Adds a name to a list that does not have it. -/
def addNew (names : List String) (name : String) : List String :=
  if name ∈ names then names else names ++ [name]

/-- The names of the parameters that are sent at a location, in order of first appearance; empty
names are left out. -/
def namesIn (parameters : List Parameter) (location : String) : List String :=
  (parameters.filter fun p => p.location = .text location ∧ p.name.isTruthy).foldl
    (fun names p => addNew names p.name.toText) []

theorem mem_addNew {names : List String} {a name : String} :
    a ∈ addNew names name ↔ a ∈ names ∨ a = name := by
  unfold addNew
  split
  · next h => exact ⟨Or.inl, fun h' => h'.elim id fun e => e ▸ h⟩
  · simp

theorem mem_foldl_addNew {α : Type} {f : α → String} {items : List α} {names : List String}
    {a : String} :
    a ∈ items.foldl (fun ns x => addNew ns (f x)) names ↔ a ∈ names ∨ ∃ x ∈ items, a = f x := by
  induction items generalizing names with
  | nil => simp
  | cons x xs ih => simp [ih, mem_addNew, or_assoc]

theorem nodup_addNew {names : List String} (h : names.Nodup) (name : String) :
    (addNew names name).Nodup := by
  unfold addNew
  split
  · exact h
  · next hnew =>
    refine List.nodup_append.2 ⟨h, List.nodup_cons.2 ⟨List.not_mem_nil, List.nodup_nil⟩, ?_⟩
    intro a ha b hb hab
    rw [List.mem_singleton] at hb
    exact hnew (hb ▸ hab ▸ ha)

theorem nodup_foldl_addNew {α : Type} (f : α → String) (items : List α) {names : List String}
    (h : names.Nodup) : (items.foldl (fun ns x => addNew ns (f x)) names).Nodup := by
  induction items generalizing names with
  | nil => exact h
  | cons x xs ih => exact ih (nodup_addNew h (f x))

theorem nodup_namesIn (parameters : List Parameter) (location : String) :
    (namesIn parameters location).Nodup :=
  nodup_foldl_addNew _ _ List.nodup_nil

end Parameter

end ApiContract
