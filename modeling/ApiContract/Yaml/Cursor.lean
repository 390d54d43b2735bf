/-!
# Places in a YAML text

A `Cursor` is a place in a text: what follows it, and its index, line and column. YAML knows five
line breaks; a return and a line feed together are one. A byte order mark takes up no column.
-/

namespace ApiContract.Yaml

/-- Why a text is not read. -/
inductive Fault
  /-- The text is not YAML, or holds what a description cannot hold. -/
  | malformed
  /-- A date, a number or a character that does not exist. -/
  | noSuchValue
  /-- A character by a number beyond 31 bits, or a number of so many parts that the place of the
  first one is beyond all numbers. -/
  | noSuchNumber
  /-- A text that is marked as a date and does not look like one. -/
  | notADate
  /-- Parts that are marked as a date. -/
  | partsForDate
  /-- A text that is marked as a truth value and is no such word. -/
  | notATruthWord
  /-- A text that is marked as a number and is empty. -/
  | emptyNumber
  /-- Anything else, in the words of the reader. -/
  | failed (text : String)
  deriving DecidableEq, Repr

/-- A place in a text. -/
structure Cursor where
  rest : List Char
  index : Nat := 0
  line : Nat := 0
  column : Nat := 0
  deriving DecidableEq, Repr

/-- A line break. -/
def isBreak (c : Char) : Bool :=
  c == '\r' || c == '\n' || c == '\u0085' || c == '\u2028' || c == '\u2029'

/-- A blank or a line break. -/
def isSpace (c : Char) : Bool :=
  c == ' ' || isBreak c

/-- A blank, a tab or a line break. -/
def isWhite (c : Char) : Bool :=
  c == '\t' || isSpace c

namespace Cursor

/-- The character at the cursor. -/
def peek? (c : Cursor) : Option Char := c.rest.head?

/-- The character some places after the cursor. -/
def ahead? (c : Cursor) (n : Nat) : Option Char := c.rest[n]?

/-- Whether the character at the cursor belongs to a class. -/
def on (c : Cursor) (p : Char → Bool) : Bool := c.peek?.any p

/-- Whether the text ends here or goes on with a character of a class. -/
def endsOr (c : Cursor) (p : Char → Bool) : Bool := c.peek?.all p

/-- Whether the text ends some places after the cursor or goes on there with a character of a
class. -/
def endsOrAhead (c : Cursor) (n : Nat) (p : Char → Bool) : Bool := (c.ahead? n).all p

/-- The next place. -/
def next (c : Cursor) : Cursor :=
  match c.rest with
  | [] => c
  | ch :: rest =>
    if (isBreak ch && ch != '\r') || (ch == '\r' && rest.head? != some '\n') then
      ⟨rest, c.index + 1, c.line + 1, 0⟩
    else if ch == '\uFEFF' then { c with rest, index := c.index + 1 }
    else { c with rest, index := c.index + 1, column := c.column + 1 }

/-- The place some characters further on. -/
def advance (c : Cursor) : Nat → Cursor
  | 0 => c
  | n + 1 => c.next.advance n

/-- The characters of a class that follow the cursor, and the place after them. -/
def span (c : Cursor) (p : Char → Bool) : List Char × Cursor :=
  let run := c.rest.takeWhile p
  (run, c.advance run.length)

/-- The place after all following characters of a class. -/
def skip (c : Cursor) (p : Char → Bool) : Cursor := (c.span p).2

/-- The line break at the cursor, as it counts in a text, and the place after it. All breaks count
as a line feed but the two separators of Unicode. -/
def lineBreak? (c : Cursor) : Option (Char × Cursor) :=
  match c.rest with
  | '\r' :: '\n' :: _ => some ('\n', c.advance 2)
  | ch :: _ =>
    if ch == '\u2028' || ch == '\u2029' then some (ch, c.next)
    else if isBreak ch then some ('\n', c.next)
    else none
  | [] => none

/-- Whether a line that begins at the cursor is a mark between documents. -/
def atDocumentMark (c : Cursor) : Bool :=
  match c.rest with
  | '-' :: '-' :: '-' :: rest => rest.head?.all isWhite
  | '.' :: '.' :: '.' :: rest => rest.head?.all isWhite
  | _ => false

end Cursor

end ApiContract.Yaml
