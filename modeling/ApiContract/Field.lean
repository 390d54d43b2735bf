import ApiContract.Value
import ApiContract.Value.Text

/-!
# Fields of a known type

Where a description or a configuration has to hold a text or a truth value, the value is read here,
and a `Field.Fault` says where and why it could not be.
-/

namespace ApiContract.Field

/-- Why a value does not fit its field. -/
inductive Reason
  /-- A text was expected. -/
  | text
  /-- The bytes of a text are not UTF-8. -/
  | encoding
  /-- A truth value was expected. -/
  | truthValue
  /-- No spelling of a truth value. -/
  | truthWord
  /-- A list was expected. -/
  | list
  /-- None of the listed words. -/
  | choice
  /-- The field has to be there. -/
  | missing
  deriving DecidableEq, Repr

/-- A misfit, with the way to its field. -/
structure Fault where
  place : List String
  reason : Reason
  deriving DecidableEq, Repr

/-- The fault seen from further outside. -/
def Fault.within (steps : List String) (fault : Fault) : Fault :=
  ⟨steps ++ fault.place, fault.reason⟩

/-- The text of UTF-8 bytes. -/
def ofUtf8? (bytes : List UInt8) : Option String :=
  String.fromUTF8? ⟨bytes.toArray⟩

/-- The text in a field: a text, or the bytes of one. -/
def readText : Value → Except Reason String
  | .text s => .ok s
  | .scalar (.bytes bs) =>
    match ofUtf8? bs with
    | some s => .ok s
    | none => .error .encoding
  | _ => .error .text

/-- How a key appears in the place of a fault. -/
def keyPlace : Scalar → String
  | .text s => s
  | .bool b => if b then "1" else "0"
  | k => k.quoted

/-- The place of the key itself of an entry. -/
def keyStep : String := "[key]"

/-- The faults among the keys of an object that has to have texts as keys. -/
def keyFaults (keys : List Scalar) : List Fault :=
  keys.filterMap fun k =>
    match readText (.scalar k) with
    | .ok _ => none
    | .error reason => some ⟨[keyPlace k, keyStep], reason⟩

end ApiContract.Field
