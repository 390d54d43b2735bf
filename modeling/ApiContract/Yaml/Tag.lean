import ApiContract.Field
import ApiContract.Json.Literal
import ApiContract.Text.Numeral
import ApiContract.Yaml.Token

/-!
# Tags, anchors and directives

A tag says what kind of value follows: by a handle and a suffix, or by its full name in angle
brackets. An anchor names a value so that it can be used again. A directive before a document gives
the version of YAML or the meaning of a handle.
-/

namespace ApiContract.Yaml

/-- A letter, digit, hyphen or underscore of ASCII. -/
def isWordChar (c : Char) : Bool :=
  c.isAlphanum || c == '-' || c == '_'

namespace Tag

/-- A character of a tag besides escapes. -/
def isUriChar (c : Char) : Bool :=
  isWordChar c || c ∈ "-;/?:@&=+$,_.!~*'()[]".toList

/-- The byte that an escape stands for. -/
def escapedByte? : List Char → Option UInt8
  | '%' :: h₁ :: h₂ :: _ => (Json.hexValue? [h₁, h₂]).map Nat.toUInt8
  | _ => none

/-- The bytes of the escapes that a text begins with; `none` if one is cut short. -/
def escapedBytes : Nat → List Char → Option (List UInt8)
  | 0, _ => some []
  | fuel + 1, text =>
    if text.head? = some '%' then do
      let b ← escapedByte? text
      return b :: (← escapedBytes fuel (text.drop 3))
    else some []

/-- Reads the characters of a tag. -/
def uriChars : Nat → Cursor → Except Fault (List Char × Cursor)
  | 0, c => .ok ([], c)
  | fuel + 1, c =>
    match c.peek? with
    | none => .ok ([], c)
    | some ch =>
      if ch == '%' then
        match escapedBytes (c.rest.length + 1) c.rest with
        | some bytes =>
          match Field.ofUtf8? bytes with
          | some text =>
            (uriChars fuel (c.advance (3 * bytes.length))).map fun (more, c) =>
              (text.toList ++ more, c)
          | none => .error .malformed
        | none => .error .malformed
      else if isUriChar ch then
        (uriChars fuel c.next).map fun (more, c) => (ch :: more, c)
      else .ok ([], c)

/-- Reads the characters of a tag, of which there must be one. -/
def uri (c : Cursor) : Except Fault (List Char × Cursor) := do
  let (text, after) ← uriChars (c.rest.length + 1) c
  if after.index = c.index then .error .malformed else return (text, after)

/-- Reads a handle: an exclamation mark, or a word between two. -/
def handle (c : Cursor) : Except Fault (List Char × Cursor) :=
  if c.on (· == '!') then
    let start := c.next
    if start.on (· == ' ') then .ok (['!'], start)
    else
      let (word, after) := start.span isWordChar
      if after.on (· == '!') then .ok ('!' :: word ++ ['!'], after.next) else .error .malformed
  else .error .malformed

/-- Whether a second exclamation mark follows before the tag ends. -/
def hasHandle (text : List Char) : Bool :=
  (text.find? fun ch => ch == '!' || isSpace ch) == some '!'

/-- Reads the tag at the cursor. -/
def read (c : Cursor) : Except Fault (Token × Cursor) := do
  let start := c.next
  let (token, after) ←
    if start.on (· == '<') then do
      let (name, after) ← uri start.next
      if after.on (· == '>') then pure (Token.tag none name, after.next) else .error .malformed
    else if start.endsOr isWhite then pure (Token.tag none ['!'], start)
    else do
      let (name, after) ← if hasHandle start.rest then handle c else pure (['!'], start)
      let (suffix, after) ← uri after
      pure (Token.tag (some name) suffix, after)
  if after.endsOr isSpace then return (token, after) else .error .malformed

end Tag

namespace Anchor

/-- What may follow the name of an anchor. -/
def mayFollow (c : Char) : Bool :=
  isWhite c || c ∈ "?:,]\x7d%@`".toList

/-- Reads the name of an anchor after its mark. -/
def read (c : Cursor) : Except Fault (List Char × Cursor) :=
  let (name, after) := c.next.span isWordChar
  if name ≠ [] ∧ after.endsOr mayFollow then .ok (name, after) else .error .malformed

end Anchor

namespace Directive

/-- Reads a whole number of ASCII digits. -/
def number (c : Cursor) : Except Fault (Nat × Cursor) :=
  let (digits, after) := c.span Char.isDigit
  if digits = [] then .error .malformed else .ok (Text.digitsValue digits, after)

/-- Reads the version that a directive gives. -/
def readVersion (c : Cursor) : Except Fault (Directive × Cursor) := do
  let (major, c) ← number (c.skip (· == ' '))
  if c.on (· == '.') then
    let (minor, c) ← number c.next
    if c.endsOr isSpace then return (.version major minor, c) else .error .malformed
  else .error .malformed

/-- Reads the handle that a directive explains, and what it stands for. -/
def readTag (c : Cursor) : Except Fault (Directive × Cursor) := do
  let (name, c) ← Tag.handle (c.skip (· == ' '))
  if c.on (· == ' ') then
    let (text, c) ← Tag.uri (c.skip (· == ' '))
    if c.endsOr isSpace then return (.tag name text, c) else .error .malformed
  else .error .malformed

/-- Reads the directive at the cursor, up to the end of its line. -/
def read (endOfLine : Cursor → Except Fault Cursor) (c : Cursor) :
    Except Fault (Directive × Cursor) := do
  let (name, c) := c.next.span isWordChar
  if name = [] ∨ !c.endsOr isSpace then .error .malformed
  else
    let (directive, c) ←
      if name = "YAML".toList then readVersion c
      else if name = "TAG".toList then readTag c
      else pure (.other, c.skip fun ch => !isBreak ch)
    return (directive, ← endOfLine c)

end Directive

end ApiContract.Yaml
