import ApiContract.Calendar
import ApiContract.Decimal.Double

/-!
# Decoded values

What a description in JSON or YAML decodes to. A `Scalar` has no parts; a `Value` is a scalar, a
list, an object or a set. The fields of an object keep their order, and a key may be any scalar:
`Scalar.same` says when two keys are one key.

Main facts: `Scalar.same_text` (a text is the same key only as itself), `field?_insert_text` and
`field?_insert_of_ne` (what a field holds after an insertion).
-/

namespace ApiContract

/-- A value without parts. -/
inductive Scalar
  | null
  | bool (b : Bool)
  | int (n : Int)
  | float (x : Double)
  | text (s : String)
  | date (d : Date)
  | instant (t : Instant)
  | bytes (bs : List UInt8)
  deriving DecidableEq, Repr

namespace Scalar

/-- The number that a scalar counts as when it is compared: a truth value is 0 or 1, and a float
without a fraction is an integer. -/
def number? : Scalar → Option (Int ⊕ Double)
  | bool b => some (.inl (if b then 1 else 0))
  | int n => some (.inl n)
  | float x => some (match x.toInt? with
    | some n => .inl n
    | none => .inr x)
  | _ => none

/-- Whether two scalars are the same key. Numbers are compared by value and instants by the moment
that they name. -/
def same (a b : Scalar) : Bool :=
  match a.number?, b.number? with
  | some m, some n => m == n
  | none, none =>
    match a, b with
    | instant t, instant u => t.same u
    | a, b => a == b
  | _, _ => false

/-- Whether a scalar counts as something: neither null, false, zero nor empty. -/
def isTruthy : Scalar → Bool
  | null => false
  | bool b => b
  | int n => n != 0
  | float x => !x.isZero
  | text s => s != ""
  | bytes bs => bs != []
  | date _ | instant _ => true

/-- The name of the kind of a scalar. -/
def kindName : Scalar → String
  | null => "NoneType"
  | bool _ => "bool"
  | int _ => "int"
  | float _ => "float"
  | text _ => "str"
  | date _ => "date"
  | instant _ => "datetime"
  | bytes _ => "bytes"

/-- A text is the same key only as itself. -/
theorem same_text (k : Scalar) (s : String) : same k (text s) = (k == text s) := by
  cases k <;> simp [same, number?]

end Scalar

/-- A decoded value. -/
inductive Value
  | scalar (s : Scalar)
  | list (items : List Value)
  | object (fields : List (Scalar × Value))
  | set (members : List Scalar)
  deriving Repr

/-- The fields of an object, in order. -/
abbrev Fields := List (Scalar × Value)

namespace Fields

/-- The value of the field whose key is a text. -/
def field? (fields : Fields) (name : String) : Option Value :=
  match fields with
  | [] => none
  | (key, value) :: rest => if key = .text name then some value else field? rest name

/-- Sets a field: the value replaces that of the same key, which keeps its place; a new key goes
to the end. -/
def insert (fields : Fields) (key : Scalar) (value : Value) : Fields :=
  match fields with
  | [] => [(key, value)]
  | (k, v) :: rest =>
    if k.same key then (k, value) :: rest else (k, v) :: insert rest key value

/-- The fields in order of their first appearance, each with its last value. -/
def ofList (pairs : List (Scalar × Value)) : Fields :=
  pairs.foldl (fun fields (k, v) => insert fields k v) []

theorem field?_insert_text (fields : Fields) (name : String) (value : Value) :
    (fields.insert (.text name) value).field? name = some value := by
  induction fields with
  | nil => simp [insert, field?]
  | cons kv rest ih =>
    obtain ⟨k, v⟩ := kv
    by_cases h : k = .text name
    · simp [insert, field?, Scalar.same_text, h]
    · simp [insert, field?, Scalar.same_text, h, ih]

theorem field?_insert_of_ne (fields : Fields) {name other : String} (hne : other ≠ name)
    (value : Value) :
    (fields.insert (.text name) value).field? other = fields.field? other := by
  induction fields with
  | nil => simp [insert, field?, hne.symm]
  | cons kv rest ih =>
    obtain ⟨k, v⟩ := kv
    by_cases h : k = .text name
    · simp [insert, field?, Scalar.same_text, h, hne.symm]
    · by_cases h' : k = .text other <;> simp [insert, field?, Scalar.same_text, h, h', ih,
        hne]

end Fields

namespace Value

@[match_pattern] abbrev null : Value := .scalar .null
@[match_pattern] abbrev bool (b : Bool) : Value := .scalar (.bool b)
@[match_pattern] abbrev int (n : Int) : Value := .scalar (.int n)
@[match_pattern] abbrev float (x : Double) : Value := .scalar (.float x)
@[match_pattern] abbrev text (s : String) : Value := .scalar (.text s)

/-- The field of an object; nothing else has fields. -/
def field? (value : Value) (name : String) : Option Value :=
  match value with
  | object fields => Fields.field? fields name
  | _ => none

/-- The text that a value is, if it is one. -/
def text? : Value → Option String
  | text s => some s
  | _ => none

/-- Whether a value counts as something: no null, false or zero, and nothing empty. -/
def isTruthy : Value → Bool
  | scalar s => s.isTruthy
  | list items => !items.isEmpty
  | object fields => !fields.isEmpty
  | set members => !members.isEmpty

/-- The name of the kind of a value. -/
def kindName : Value → String
  | scalar s => s.kindName
  | list _ => "list"
  | object _ => "dict"
  | set _ => "set"

end Value

example : Scalar.same (.bool true) (.float (.ofDecimal false 1 0)) := by decide +kernel
example : Scalar.same (.float (.zero true)) (.int 0) := by decide +kernel
example : ¬ Scalar.same (.null) (.bool false) := by decide +kernel

end ApiContract
