import ApiContract.Field

/-!
# Records with fields of known types

A record is read field by field, and all its faults are reported together, in the order of its
fields. `Checked` is the result of reading; its parts are put together with `<*>`.

Truth values may be written as words or as the numbers 0 and 1.
-/

namespace ApiContract.Field

/-- A value, or all the faults that were found. -/
def Checked (α : Type) := Except (List Fault) α

namespace Checked

/-- One reading after another; faults of both are kept. -/
def andAlso (f : Checked (α → β)) (x : Unit → Checked α) : Checked β :=
  match f, x () with
  | .ok f, .ok a => .ok (f a)
  | .ok _, .error faults => .error faults
  | .error faults, .ok _ => .error faults
  | .error faults, .error more => .error (faults ++ more)

instance : Applicative Checked where
  pure a := Except.ok a
  seq := andAlso

/-- The reading of something inside a place. -/
def within (steps : List String) (x : Checked α) : Checked α :=
  match x with
  | .ok a => .ok a
  | .error faults => .error (faults.map (Fault.within steps))

/-- A value, or the reason why it does not fit. -/
def ofReason (x : Except Reason α) : Checked α :=
  x.mapError fun reason => [⟨[], reason⟩]

end Checked

/-- A text. -/
def text (value : Value) : Checked String :=
  .ofReason (readText value)

/-- The words for a truth value. -/
def truthWords : List (String × Bool) := [
  ("0", false), ("off", false), ("f", false), ("false", false), ("n", false), ("no", false),
  ("1", true), ("on", true), ("t", true), ("true", true), ("y", true), ("yes", true)]

/-- The truth value that a word spells, whatever its case. -/
def readTruthWord (word : String) : Except Reason Bool :=
  match truthWords.lookup (word.map Char.toLower) with
  | some b => .ok b
  | none => .error .truthWord

/-- The truth value that a whole number stands for. A number beyond 64 bits is none at all. -/
def readTruthNumber (n : Int) : Except Reason Bool :=
  if n = 0 then .ok false
  else if n = 1 then .ok true
  else if -(Nat.pow 2 63 : Int) ≤ n ∧ n < Nat.pow 2 63 then .error .truthWord
  else .error .truthValue

/-- A truth value, or a word or number for one. -/
def readTruth : Value → Except Reason Bool
  | .bool b => .ok b
  | .text s => readTruthWord s
  | .int n => readTruthNumber n
  | .float x =>
    match x.toInt? with
    | some n => readTruthNumber n
    | none => .error .truthValue
  | .scalar (.bytes bs) =>
    match ofUtf8? bs with
    | some s => readTruthWord s
    | none => .error .truthWord
  | _ => .error .truthValue

/-- A truth value. -/
def truth (value : Value) : Checked Bool :=
  .ofReason (readTruth value)

/-- A value of some type, or null. -/
def orNull (read : Value → Checked α) : Value → Checked (Option α)
  | .null => pure none
  | value => some <$> read value

/-- The items of a list from a number on. -/
def itemsFrom (read : Value → Checked α) (index : Nat) : List Value → Checked (List α)
  | [] => pure []
  | value :: rest =>
    List.cons <$> (read value).within [toString index] <*> itemsFrom read (index + 1) rest

/-- A list of values of some type. -/
def listOf (read : Value → Checked α) : Value → Checked (List α)
  | .list items => itemsFrom read 0 items
  | _ => .ofReason (.error .list)

/-- A field that has to be there. -/
def required (fields : Fields) (name : String) (read : Value → Checked α) : Checked α :=
  match fields.field? name with
  | some value => (read value).within [name]
  | none => .error [⟨[name], .missing⟩]

/-- A field that need not be there. -/
def optional (fields : Fields) (name : String) (default : α) (read : Value → Checked α) :
    Checked α :=
  match fields.field? name with
  | some value => (read value).within [name]
  | none => pure default

end ApiContract.Field
