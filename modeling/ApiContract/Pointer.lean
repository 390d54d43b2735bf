import ApiContract.Text.Digit
import ApiContract.Text.Pieces
import ApiContract.Value

/-!
# Pointers into a value

A pointer `#/a/0` leads through fields of objects and items of lists. In its tokens `~1` stands for
a slash and `~0` for a tilde. `resolve` follows one pointer; `deref` follows the `$ref` of an object
until something else is reached, and refuses a pointer that it has followed before.

Main facts: `unescape_escape` (writing a token and reading it gives the token back) and
`slash_not_mem_escape` (a written token holds no slash).
-/

namespace ApiContract.Pointer

/-- Why a pointer leads nowhere. -/
inductive Fault
  /-- The pointer does not begin at the root of this description. -/
  | external (pointer : String)
  | missingKey (pointer key : String)
  | badIndex (pointer index : String)
  /-- The pointer goes on where there is neither an object nor a list. -/
  | deadEnd (pointer kind : String)
  /-- The pointer has been followed before. -/
  | circular (pointer : String)
  deriving DecidableEq, Repr

/-- The message for a fault. -/
def Fault.message : Fault → String
  | external p =>
    "External $ref not supported: " ++ p ++ ". Only internal references (#/...) are handled."
  | missingKey p key => "Cannot resolve $ref '" ++ p ++ "': key '" ++ key ++ "' not found"
  | badIndex p index => "Cannot resolve $ref '" ++ p ++ "': invalid array index '" ++ index ++ "'"
  | deadEnd p kind => "Cannot resolve $ref '" ++ p ++ "': cannot navigate into " ++ kind
  | circular p => "Circular $ref chain through '" ++ p ++ "'"

/-- A token as written in a pointer. -/
def escape (token : List Char) : List Char :=
  Text.replaceAll ['/'] ['~', '1'] (Text.replaceAll ['~'] ['~', '0'] token)

/-- The token that a written one stands for. -/
def unescape (written : List Char) : List Char :=
  Text.replaceAll ['~', '0'] ['~'] (Text.replaceAll ['~', '1'] ['/'] written)

theorem escape_cons (c : Char) (token : List Char) :
    escape (c :: token) =
      (if c = '~' then ['~', '0'] else if c = '/' then ['~', '1'] else [c]) ++ escape token := by
  unfold escape
  by_cases h : c = '~'
  · subst h; simp [Text.replaceAll_singleton]
  · by_cases h' : c = '/' <;> simp [Text.replaceAll_singleton, h, h']

theorem slash_not_mem_escape (token : List Char) : '/' ∉ escape token := by
  induction token with
  | nil => decide
  | cons c cs ih =>
    rw [escape_cons]
    by_cases h : c = '~'
    · simp [h, ih]
    · by_cases h' : c = '/'
      · simp [h', ih]
      · simp [h, h', ih, Ne.symm h']

/-- Reading the slashes of a written token leaves only its tildes to be read. -/
theorem replaceAll_escape (token : List Char) :
    Text.replaceAll ['~', '1'] ['/'] (escape token) =
      Text.replaceAll ['~'] ['~', '0'] token := by
  induction token with
  | nil => rfl
  | cons c cs ih =>
    rw [escape_cons]
    by_cases h : c = '~'
    · subst h; simp_all [Text.replaceAll, Text.replaceFrom]
    · by_cases h' : c = '/'
      · subst h'; simp_all [Text.replaceAll, Text.replaceFrom]
      · have h'' : '~' ≠ c := Ne.symm h
        simp_all [Text.replaceAll, Text.replaceFrom]

theorem unescape_escape (token : List Char) : unescape (escape token) = token := by
  rw [unescape, replaceAll_escape]
  induction token with
  | nil => rfl
  | cons c cs ih =>
    by_cases h : c = '~'
    · subst h; simp_all [Text.replaceAll, Text.replaceFrom]
    · have h' : '~' ≠ c := Ne.symm h
      simp_all [Text.replaceAll, Text.replaceFrom]

/-- The item of a list at an index, from the end if the index is negative. -/
def itemAt? (items : List α) (index : Int) : Option α :=
  if 0 ≤ index then items[index.toNat]?
  else if -index ≤ items.length then items[(items.length + index).toNat]?
  else none

/-- One step of the pointer, from a value by a token. -/
def step (pointer : String) (value : Value) (token : List Char) : Except Fault Value :=
  match value with
  | .object fields =>
    match Fields.field? fields (String.ofList token) with
    | some v => .ok v
    | none => .error (.missingKey pointer (String.ofList token))
  | .list items =>
    match (Text.readInt? token).bind (itemAt? items) with
    | some v => .ok v
    | none => .error (.badIndex pointer (String.ofList token))
  | v => .error (.deadEnd pointer v.kindName)

/-- The written tokens of a pointer that begins at the root. -/
def tokens? (pointer : String) : Option (List (List Char)) :=
  match pointer.toList with
  | '#' :: '/' :: rest => some (Text.piecesAt '/' rest)
  | _ => none

/-- The value that a pointer leads to. -/
def resolve (pointer : String) (root : Value) : Except Fault Value :=
  match tokens? pointer with
  | none => .error (.external pointer)
  | some tokens => tokens.foldlM (fun value token => step pointer value (unescape token)) root

/-- The pointer in an object that stands for what it points to. -/
def reference? : Value → Option String
  | .object fields => (Fields.field? fields "$ref").bind Value.text?
  | _ => none

mutual

/-- The number of pointers in a value. -/
def countReferences : Value → Nat
  | .object fields => countInFields fields
  | .list items => countInItems items
  | _ => 0

/-- The number of pointers in the items of a list. -/
def countInItems : List Value → Nat
  | [] => 0
  | item :: items => countReferences item + countInItems items

/-- The number of pointers in the fields of an object. -/
def countInFields : List (Scalar × Value) → Nat
  | [] => 0
  | (key, value) :: fields =>
    (if key = .text "$ref" ∧ value.text?.isSome then 1 else 0) + countReferences value +
      countInFields fields

end

/-- Follows pointers from `value`, at most `fuel` of them and none that is in `seen`. -/
def follow (root : Value) : Nat → List String → Value → Except Fault Value
  | 0, _, value => .ok value
  | fuel + 1, seen, value =>
    match reference? value with
    | none => .ok value
    | some p =>
      if p ∈ seen then .error (.circular p)
      else do follow root fuel (p :: seen) (← resolve p root)

/-- The root into which the pointers of a description lead. -/
def rootOf (components : Value) : Value :=
  .object [(.text "components", components)]

/-- What a value stands for: the first value along its pointers that is not one. A chain can follow
the pointer of the value itself and each one of the components; the next is a repetition. -/
def deref (value : Value) (components : Value) : Except Fault Value :=
  follow (rootOf components) (countReferences components + 3) [] value

/-- The name at the end of a pointer. -/
def lastName (pointer : String) : String :=
  let name := pointer.toList.reverse.takeWhile (· ≠ '/')
  String.ofList (unescape name.reverse)

example : unescape (escape "a/b~1~".toList) = "a/b~1~".toList := by decide +kernel
example : unescape "~01".toList = "~1".toList := by decide +kernel
example : lastName "#/components/schemas/a~1b" = "a/b" := by decide +kernel

end ApiContract.Pointer
