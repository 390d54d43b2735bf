import ApiContract.Field
import ApiContract.Pointer

/-!
# Faults in the structure of a description

Most of a description may be missing or strange without harm. What cannot be passed over is listed
here.
-/

namespace ApiContract.Description

/-- Where the structure of a description breaks. -/
inductive Fault
  /-- A pointer leads nowhere. -/
  | pointer (fault : Pointer.Fault)
  /-- Fields do not have the type that they must have. -/
  | fields (faults : List Field.Fault)
  /-- A part that has to have fields has none. -/
  | noFields
  /-- A part that has to be a list has no items. -/
  | noItems
  /-- A part is compared with others and is a list or an object. -/
  | noKey
  /-- No request method has this name. -/
  | unknownMethod
  deriving DecidableEq, Repr

end ApiContract.Description

namespace ApiContract.Value

open Description

/-- The fields of an object; null, false, zero and empty values have none, and no other value has
any. -/
def fieldsOrNone (value : Option Value) : Except Fault Fields :=
  match value with
  | none => .ok []
  | some (.object fields) => .ok fields
  | some v => if v.isTruthy then .error .noFields else .ok []

/-- The items of a value: those of a list, the keys of an object, the members of a set, the
characters of a text and the numbers of bytes. Null, false, zero and empty values have none, and
other values are no lists. -/
def itemsOrNone (value : Option Value) : Except Fault (List Value) :=
  match value with
  | none => .ok []
  | some (.list items) => .ok items
  | some (.object fields) => .ok (fields.map fun field => .scalar field.1)
  | some (.set members) => .ok (members.map .scalar)
  | some (.text s) => .ok (s.toList.map fun c => .text c.toString)
  | some (.scalar (.bytes bs)) => .ok (bs.map fun b => .int b.toNat)
  | some v => if v.isTruthy then .error .noItems else .ok []

/-- The objects among the items of a value. -/
def objectsAmong (items : List Value) : List Fields :=
  items.filterMap fun
    | .object fields => some fields
    | _ => none

end ApiContract.Value
