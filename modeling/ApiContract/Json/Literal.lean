import ApiContract.Decimal.Shortest
import ApiContract.Json.Fault
import ApiContract.Value
import ApiContract.Value.Text

/-!
# JSON literals

`encode` writes a text between double quotes in ASCII: a character beyond it is escaped by its
UTF-16 units. `readBody` reads what stands after the opening quote, up to the closing one. Half of a
surrogate pair is no character; it is read as the replacement character.

The examples fix the edges of both.
-/

namespace ApiContract.Json

/-- The escape of one UTF-16 unit. -/
def escapeUnit (n : Nat) : List Char :=
  '\\' :: 'u' :: Text.hex 4 n

/-- A character inside a literal. -/
def encodeChar (c : Char) : List Char :=
  if c = '"' then ['\\', '"']
  else if c = '\\' then ['\\', '\\']
  else if c = '\n' then ['\\', 'n']
  else if c = '\r' then ['\\', 'r']
  else if c = '\t' then ['\\', 't']
  else if c = '\x08' then ['\\', 'b']
  else if c = '\x0c' then ['\\', 'f']
  else if 0x20 ≤ c.toNat ∧ c.toNat < 0x7F then [c]
  else if c.toNat < 0x10000 then escapeUnit c.toNat
  else
    let n := c.toNat - 0x10000
    escapeUnit (0xD800 + n / 0x400) ++ escapeUnit (0xDC00 + n % 0x400)

/-- A text as a literal. -/
def encode (text : List Char) : List Char :=
  '"' :: text.flatMap encodeChar ++ ['"']

/-- A scalar as a literal; only texts, numbers and truth values have one. -/
def literal? : Value → Option (List Char)
  | .text s => some (encode s.toList)
  | .int n => some (toString n).toList
  | .float x => some (Decimal.literal.write x)
  | .bool b => some (if b then "true".toList else "false".toList)
  | _ => none

/-- The character after a backslash, and what the two stand for. -/
def escaped? : Char → Option Char
  | '"' => some '"'
  | '\\' => some '\\'
  | '/' => some '/'
  | 'b' => some '\x08'
  | 'f' => some '\x0c'
  | 'n' => some '\n'
  | 'r' => some '\r'
  | 't' => some '\t'
  | _ => none

/-- The value of a hexadecimal digit. -/
def hexDigit? (c : Char) : Option Nat :=
  if '0' ≤ c ∧ c ≤ '9' then some (c.toNat - '0'.toNat)
  else if 'a' ≤ c ∧ c ≤ 'f' then some (c.toNat - 'a'.toNat + 10)
  else if 'A' ≤ c ∧ c ≤ 'F' then some (c.toNat - 'A'.toNat + 10)
  else none

/-- The value of hexadecimal digits. -/
def hexValue? (digits : List Char) : Option Nat :=
  digits.foldl (fun acc c => acc.bind fun n => (hexDigit? c).map (16 * n + ·)) (some 0)

/-- The first unit of a surrogate pair. -/
def isHighSurrogate (n : Nat) : Bool := 0xD800 ≤ n && n < 0xDC00

/-- The second unit of a surrogate pair. -/
def isLowSurrogate (n : Nat) : Bool := 0xDC00 ≤ n && n < 0xE000

/-- The character of a UTF-16 unit by itself. -/
def unitChar (n : Nat) : Char :=
  if isHighSurrogate n || isLowSurrogate n then '\uFFFD' else Char.ofNat n

/-- The character of a surrogate pair. -/
def pairChar (high low : Nat) : Char :=
  Char.ofNat (0x10000 + (high - 0xD800) * 0x400 + (low - 0xDC00))

/-- The characters of UTF-16 units and other code points. -/
def ofUnits : List Nat → List Char
  | [] => []
  | [n] => [unitChar n]
  | n :: m :: rest =>
    if isHighSurrogate n && isLowSurrogate m then pairChar n m :: ofUnits rest
    else unitChar n :: ofUnits (m :: rest)

/-- Reads the code points of a literal up to its closing quote, each escape of four digits as one
unit. `opening` is what remains of the whole text from the opening quote on. The text must go on
after an escape of four digits. -/
def readUnits (opening : Nat) : List Char → Except Fault (List Nat × List Char)
  | [] => .error ⟨.unterminatedText, opening⟩
  | '"' :: rest => .ok ([], rest)
  | ['\\'] => .error ⟨.unterminatedText, opening⟩
  | '\\' :: 'u' :: h₁ :: h₂ :: h₃ :: h₄ :: next :: rest =>
    match hexValue? [h₁, h₂, h₃, h₄] with
    | none => .error ⟨.malformedEscape, rest.length + 6⟩
    | some n => (readUnits opening (next :: rest)).map fun (s, r) => (n :: s, r)
  | '\\' :: 'u' :: rest => .error ⟨.malformedEscape, rest.length + 1⟩
  | '\\' :: c :: rest =>
    match escaped? c with
    | some d => (readUnits opening rest).map fun (s, r) => (d.toNat :: s, r)
    | none => .error ⟨.unknownEscape, rest.length + 2⟩
  | c :: rest =>
    if c.toNat < 0x20 then .error ⟨.controlCharacter, rest.length + 1⟩
    else (readUnits opening rest).map fun (s, r) => (c.toNat :: s, r)

/-- Reads the text of a literal whose opening quote is already read. -/
def readBody (rest : List Char) : Except Fault (List Char × List Char) :=
  (readUnits (rest.length + 1) rest).map fun (units, r) => (ofUnits units, r)

/-- The text of a literal that fills a whole text. -/
def decode? : List Char → Option (List Char)
  | '"' :: rest =>
    match readBody rest with
    | .ok (text, []) => some text
    | _ => none
  | _ => none

example : encode "a\"\\\n\x7f€😀".toList =
    "\"a\\\"\\\\\\n\\u007f\\u20ac\\ud83d\\ude00\"".toList := by
  decide +kernel
example : decode? "\"\\ud83d\\ude00\\/\"".toList = some "😀/".toList := by decide +kernel
example : decode? "\"\\ud83dx\"".toList = some "\uFFFDx".toList := by decide +kernel
example : decode? (encode "a\"\\\n\x7f€😀".toList) = some "a\"\\\n\x7f€😀".toList := by decide +kernel

end ApiContract.Json
