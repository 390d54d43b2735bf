import ApiContract.Json.Literal
import ApiContract.Yaml.Cursor

/-!
# Texts in quotes

Between single quotes a quote is written twice, and nothing else is escaped. Between double quotes a
backslash escapes a character, names one by its number, or hides a line break. A line break inside
quotes is a blank, and further ones after it are line feeds; blanks around them do not count.

Every step takes a character, so the length of the text bounds the number of steps.
-/

namespace ApiContract.Yaml.Quoted

/-- Further line breaks after one inside quotes. A mark between documents may not stand here. -/
def breaks : Nat → Cursor → Except Fault (List Char × Cursor)
  | 0, c => .ok ([], c)
  | fuel + 1, c =>
    if c.atDocumentMark then .error .malformed
    else
      let c := c.skip fun ch => ch == ' ' || ch == '\t'
      match c.lineBreak? with
      | some (b, c) => do
        let (bs, c) ← breaks fuel c
        return (b :: bs, c)
      | none => .ok ([], c)

/-- What a line break and the breaks after it stand for. -/
def folded (first : Char) (others : List Char) : List Char :=
  if first ≠ '\n' then first :: others else if others = [] then [' '] else others

/-- The character that a letter stands for after a backslash. -/
def escaped? : Char → Option Char
  | '0' => some '\x00'
  | 'a' => some '\x07'
  | 'b' => some '\x08'
  | 't' | '\t' => some '\t'
  | 'n' => some '\n'
  | 'v' => some '\x0b'
  | 'f' => some '\x0c'
  | 'r' => some '\r'
  | 'e' => some '\x1b'
  | ' ' => some ' '
  | '"' => some '"'
  | '\\' => some '\\'
  | '/' => some '/'
  | 'N' => some '\u0085'
  | '_' => some '\u00a0'
  | 'L' => some '\u2028'
  | 'P' => some '\u2029'
  | _ => none

/-- How many digits follow a letter that names a character by its number. -/
def digitCount? : Char → Option Nat
  | 'x' => some 2
  | 'u' => some 4
  | 'U' => some 8
  | _ => none

/-- The character with the number that the next digits give. -/
def numbered (count : Nat) (c : Cursor) : Except Fault (Char × Cursor) :=
  let digits := c.rest.take count
  match Json.hexValue? digits with
  | some n =>
    if digits.length < count then .error .malformed
    else if n < 0x110000 then .ok (Json.unitChar n, c.advance count)
    else if n < 0x80000000 then .error .noSuchValue
    else .error .noSuchNumber
  | none => .error .malformed

/-- What stands after a backslash. -/
def escape (c : Cursor) : Except Fault (List Char × Cursor) :=
  match c.peek? with
  | none => .error .malformed
  | some ch =>
    match escaped? ch, digitCount? ch, c.lineBreak? with
    | some d, _, _ => .ok ([d], c.next)
    | none, some count, _ => (numbered count c.next).map fun (d, c) => ([d], c)
    | none, none, some (_, c) => breaks (c.rest.length + 1) c
    | none, none, none => .error .malformed

/-- Reads up to the closing quote. -/
def body (double : Bool) : Nat → Cursor → Except Fault (List Char × Cursor)
  | 0, _ => .error .malformed
  | fuel + 1, c =>
    let continued (text : List Char) (c : Cursor) : Except Fault (List Char × Cursor) :=
      (body double fuel c).map fun (more, c) => (text ++ more, c)
    match c.rest with
    | [] => .error .malformed
    | ch :: rest =>
      if !double && ch == '\'' && rest.head? == some '\'' then continued ['\''] (c.advance 2)
      else if ch == (if double then '"' else '\'') then .ok ([], c.next)
      else if double && ch == '\\' then do
        let (text, c) ← escape c.next
        continued text c
      else if isWhite ch then
        let (blanks, after) := c.span fun d => d == ' ' || d == '\t'
        match after.lineBreak? with
        | some (b, c) => do
          let (bs, c) ← breaks (c.rest.length + 1) c
          continued (folded b bs) c
        | none => continued blanks after
      else continued [ch] c.next

/-- Reads a text whose opening quote is at the cursor. -/
def read (double : Bool) (c : Cursor) : Except Fault (List Char × Cursor) :=
  body double (c.rest.length + 1) c.next

end ApiContract.Yaml.Quoted
