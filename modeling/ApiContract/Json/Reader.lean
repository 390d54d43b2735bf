import ApiContract.Json.Literal
import ApiContract.Text.Numeral

/-!
# Reading JSON

`Json.read` reads a whole text. Besides the numbers of the standard it knows `NaN`, `Infinity` and
`-Infinity`; a number with a point or an exponent is a `Double`, any other an integer of any size.
Of fields with one name the last counts, at the place of the first.

Of every two nested steps of the reader at least one takes a character, so twice the length of the
text bounds their depth.
-/

namespace ApiContract.Json

open Text

/-- The blanks between tokens. -/
def isSpace (c : Char) : Bool :=
  c = ' ' || c = '\t' || c = '\n' || c = '\r'

/-- The text from its first token on. -/
def skipSpace (text : List Char) : List Char :=
  text.dropWhile isSpace

/-- The whole part of a number: a zero, or digits that begin with another one. -/
def readWhole? (text : List Char) : Option (List Char × List Char) :=
  match text with
  | '0' :: rest => some (['0'], rest)
  | c :: _ => if c.isDigit then some (spanDigits text) else none
  | [] => none

/-- The digits after a point; without any the point is not part of the number. -/
def readFraction? (text : List Char) : Option (List Char × List Char) :=
  match text with
  | '.' :: rest => if (spanDigits rest).1 = [] then none else some (spanDigits rest)
  | _ => none

/-- Reads the number after its sign. -/
def readNumber? (negative : Bool) (text : List Char) : Option (Scalar × List Char) := do
  let (whole, rest) ← readWhole? text
  let fraction := readFraction? rest
  let (decimals, rest) := fraction.getD ([], rest)
  let power := readPower? rest
  let (exponent, rest) := power.getD (0, rest)
  if fraction.isSome || power.isSome then
    let digits := digitsValue (whole ++ decimals)
    return (.float (.ofDecimal negative digits (exponent - decimals.length)), rest)
  else
    let n : Int := digitsValue whole
    return (.int (if negative then -n else n), rest)

/-- Reads a constant or a number. -/
def readScalar? : List Char → Option (Scalar × List Char)
  | 'n' :: 'u' :: 'l' :: 'l' :: rest => some (.null, rest)
  | 't' :: 'r' :: 'u' :: 'e' :: rest => some (.bool true, rest)
  | 'f' :: 'a' :: 'l' :: 's' :: 'e' :: rest => some (.bool false, rest)
  | 'N' :: 'a' :: 'N' :: rest => some (.float .notANumber, rest)
  | 'I' :: 'n' :: 'f' :: 'i' :: 'n' :: 'i' :: 't' :: 'y' :: rest =>
    some (.float (.infinite false), rest)
  | '-' :: 'I' :: 'n' :: 'f' :: 'i' :: 'n' :: 'i' :: 't' :: 'y' :: rest =>
    some (.float (.infinite true), rest)
  | '-' :: rest => readNumber? true rest
  | rest => readNumber? false rest

mutual

/-- Reads one value at the start of a text. -/
def readValue : Nat → List Char → Except Fault (Value × List Char)
  | 0, text => .error ⟨.expectingValue, text.length⟩
  | fuel + 1, text =>
    match text with
    | '"' :: rest => do
      let (s, rest) ← readBody rest
      return (.text (String.ofList s), rest)
    | '[' :: rest =>
      match skipSpace rest with
      | ']' :: rest => .ok (.list [], rest)
      | rest => do
        let (items, rest) ← readItems fuel rest
        return (.list items, rest)
    | '\x7b' :: rest =>
      match skipSpace rest with
      | '\x7d' :: rest => .ok (.object [], rest)
      | rest => do
        let (fields, rest) ← readMembers fuel rest
        return (.object (Fields.ofList fields), rest)
    | text =>
      match readScalar? text with
      | some (s, rest) => .ok (.scalar s, rest)
      | none => .error ⟨.expectingValue, text.length⟩

/-- Reads the items of a list up to its closing bracket. -/
def readItems : Nat → List Char → Except Fault (List Value × List Char)
  | 0, text => .error ⟨.expectingValue, text.length⟩
  | fuel + 1, text => do
    let (item, rest) ← readValue fuel text
    match skipSpace rest with
    | ']' :: rest => return ([item], rest)
    | ',' :: rest =>
      let (items, rest) ← readItems fuel (skipSpace rest)
      return (item :: items, rest)
    | rest => .error ⟨.expectingComma, rest.length⟩

/-- Reads the fields of an object up to its closing brace. -/
def readMembers : Nat → List Char → Except Fault (List (Scalar × Value) × List Char)
  | 0, text => .error ⟨.expectingValue, text.length⟩
  | fuel + 1, text =>
    match text with
    | '"' :: rest => do
      let (name, rest) ← readBody rest
      match skipSpace rest with
      | ':' :: rest =>
        let (value, rest) ← readValue fuel (skipSpace rest)
        let field := (Scalar.text (String.ofList name), value)
        match skipSpace rest with
        | '\x7d' :: rest => return ([field], rest)
        | ',' :: rest =>
          let (fields, rest) ← readMembers fuel (skipSpace rest)
          return (field :: fields, rest)
        | rest => .error ⟨.expectingComma, rest.length⟩
      | rest => .error ⟨.expectingColon, rest.length⟩
    | text => .error ⟨.expectingName, text.length⟩

end

/-- Reads a text that holds one value and nothing else. -/
def read (text : List Char) : Except Fault Value := do
  if text.head? = some '\uFEFF' then .error ⟨.byteOrderMark, text.length⟩
  let (value, rest) ← readValue (2 * text.length + 2) (skipSpace text)
  match skipSpace rest with
  | [] => return value
  | rest => .error ⟨.extraData, rest.length⟩

end ApiContract.Json
